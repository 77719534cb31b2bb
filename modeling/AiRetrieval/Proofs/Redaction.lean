import AiRetrieval.Proofs.LeaseExclusion
import AiRetrieval.Sanity.SensitiveEntries

/-! What a serialized telemetry event leaves of its details. The walk starts its paths
anew at every chain of `details` keys from the root, so the path it looks up and the
path from the details root are followed side by side. -/

namespace AiRetrieval

/-- No text in the value, as a key or elsewhere, is one of the given ones. -/
inductive ValueFree (values : FrozenSet) : FrozenValue → Prop
  | text {value : String} : value ∉ values.items → ValueFree values (.str value)
  | leaf {value : FrozenValue} : value.leaf = true → (∀ text, value ≠ .str text) →
      ValueFree values value
  | tuple {items : List FrozenValue} : (∀ value ∈ items, ValueFree values value) →
      ValueFree values (.tuple items)
  | frozenset {items : List FrozenValue} : (∀ value ∈ items, ValueFree values value) →
      ValueFree values (.frozenset items)
  | mapping {items : FrozenMapping} : (∀ entry ∈ items, entry.1 ∉ values.items) →
      (∀ entry ∈ items, ValueFree values entry.2) → ValueFree values (.mapping items)

/-- What redaction is complete on, at the path the walk looks up and at the path from the
details root: sets are complete already, no key is a sensitive value, the
representation is none where it is put, and an entry that is sensitive by the second path
alone is a text the walk replaces anyway. -/
inductive Redactable (policy : RedactionPolicy) : List String → List String → FrozenValue → Prop
  | text {looked path : List String} {value : String} :
      (redaction policy).text value ∉ policy.val.sensitiveValues.items →
      Redactable policy looked path (.str value)
  | leaf {looked path : List String} {value : FrozenValue} : value.leaf = true →
      (∀ text, value ≠ .str text) → Redactable policy looked path value
  | tuple {looked path : List String} {items : List FrozenValue} :
      (∀ value ∈ items, Redactable policy looked path value) →
      Redactable policy looked path (.tuple items)
  | frozenset {looked path : List String} {items : List FrozenValue} :
      (∀ value ∈ items,
        Concealed policy.val.sensitiveFields policy.val.representation path value) →
      (∀ value ∈ items, ValueFree policy.val.sensitiveValues value) →
      Redactable policy looked path (.frozenset items)
  | mapping {looked path : List String} {items : FrozenMapping} :
      (∀ key x, items.get key = some x → key ∉ policy.val.sensitiveValues.items) →
      (∀ key x, items.get key = some x → (redaction policy).hides looked key = true →
        policy.val.representation ∉ policy.val.sensitiveValues.items) →
      (∀ key x, items.get key = some x → (redaction policy).hides looked key = false →
        Sensitive policy.val.sensitiveFields path key →
        policy.val.representation ∉ policy.val.sensitiveValues.items ∧
        ∃ value, x = .str value ∧ (redaction policy).text value = policy.val.representation) →
      (∀ key x, items.get key = some x → (redaction policy).hides looked key = false →
        ¬Sensitive policy.val.sensitiveFields path key →
        Redactable policy ((redaction policy).next looked key) (path ++ [key]) x) →
      Redactable policy looked path (.mapping items)

section Inversions

variable {values : FrozenSet} {policy : RedactionPolicy} {looked path : List String}

theorem ValueFree.of_text {value : String} (h : ValueFree values (.str value)) :
    value ∉ values.items := by
  cases h with
  | text h => exact h
  | leaf _ h => exact absurd rfl (h value)

theorem ValueFree.of_tuple {items : List FrozenValue} (h : ValueFree values (.tuple items)) :
    ∀ value ∈ items, ValueFree values value := by
  cases h with
  | leaf h => cases h
  | tuple h => exact h

theorem ValueFree.of_frozenset {items : List FrozenValue}
    (h : ValueFree values (.frozenset items)) : ∀ value ∈ items, ValueFree values value := by
  cases h with
  | leaf h => cases h
  | frozenset h => exact h

theorem ValueFree.of_mapping {items : FrozenMapping} (h : ValueFree values (.mapping items)) :
    (∀ entry ∈ items, entry.1 ∉ values.items) ∧ ∀ entry ∈ items, ValueFree values entry.2 := by
  cases h with
  | leaf h => cases h
  | mapping h h' => exact ⟨h, h'⟩

theorem Redactable.of_tuple {items : List FrozenValue}
    (h : Redactable policy looked path (.tuple items)) :
    ∀ value ∈ items, Redactable policy looked path value := by
  cases h with
  | leaf h => cases h
  | tuple h => exact h

theorem Concealment.Conceals.of_representation {x : FrozenValue}
    (h : (redaction policy).Conceals path x (.str policy.val.representation)) :
    ∃ value, x = .str value ∧ (redaction policy).text value = policy.val.representation := by
  generalize hy : FrozenValue.str policy.val.representation = y at h
  cases h with
  | text value => exact ⟨value, rfl, (FrozenValue.str.inj hy).symm⟩
  | leaf _ hne => exact absurd hy.symm (hne _)
  | tuple | frozenset | mapping => cases hy

end Inversions

section Redacting

variable {policy : RedactionPolicy} {looked : List String}

theorem redacted_iff {x y : FrozenValue} (h : (redaction policy).Conceals looked x y) :
    ∀ path, (Concealed policy.val.sensitiveFields policy.val.representation path y ∧
      ValueFree policy.val.sensitiveValues y) ↔ Redactable policy looked path x := by
  induction h with
  | text value =>
    exact fun path => ⟨fun h => .text h.2.of_text, fun h => ⟨.leaf rfl, .text (by
      cases h with
      | text h => exact h
      | leaf _ h => exact absurd rfl (h value))⟩⟩
  | leaf h hne => exact fun path => ⟨fun _ => .leaf h hne, fun _ => ⟨.leaf h, .leaf h hne⟩⟩
  | @tuple looked items out hlength _ ih =>
    intro path
    constructor
    · rintro ⟨hconcealed, hfree⟩
      refine .tuple fun x hx => ?_
      obtain ⟨i, y, hx, hy⟩ := counterpart hlength hx
      have hmem := List.mem_of_getElem? hy
      exact (ih i x y hx hy path).1 ⟨hconcealed.of_tuple y hmem, hfree.of_tuple y hmem⟩
    · intro hredactable
      have hboth : ∀ y ∈ out,
          Concealed policy.val.sensitiveFields policy.val.representation path y ∧
            ValueFree policy.val.sensitiveValues y := by
        intro y hy
        obtain ⟨i, x, hy, hx⟩ := counterpart hlength.symm hy
        exact (ih i x y hx hy path).2 (hredactable.of_tuple x (List.mem_of_getElem? hx))
      exact ⟨.tuple fun y hy => (hboth y hy).1, .tuple fun y hy => (hboth y hy).2⟩
  | frozenset items =>
    refine fun path => ⟨fun h => .frozenset h.1.of_frozenset h.2.of_frozenset, fun h => ?_⟩
    cases h with
    | leaf h => cases h
    | frozenset hconcealed hfree => exact ⟨.frozenset hconcealed, .frozenset hfree⟩
  | @mapping looked items out hstrict hkeys hhidden hshown ih =>
    intro path
    constructor
    · rintro ⟨hconcealed, hfree⟩
      have hpartner : ∀ key x, items.get key = some x →
          ∃ y, out.get key = some y ∧ (key, y) ∈ out := by
        intro key x hx
        obtain ⟨y, hy⟩ := Option.isSome_iff_exists.1 (by rw [hkeys, hx]; rfl)
        exact ⟨y, hy, mem_of_lookup hy⟩
      refine .mapping (fun key x hx => ?_) (fun key x hx hhides => ?_)
        (fun key x hx hshows hsensitive => ?_) fun key x hx hshows hsensitive => ?_
      all_goals obtain ⟨y, hy, hmem⟩ := hpartner key x hx
      · exact hfree.of_mapping.1 (key, y) hmem
      · have hvalue := hfree.of_mapping.2 (key, y) hmem
        rw [hhidden key x y hx hy hhides] at hvalue
        exact hvalue.of_text
      · have hrepresentation : y = .str policy.val.representation :=
          hconcealed.of_mapping.1 (key, y) hmem hsensitive
        have hvalue := hfree.of_mapping.2 (key, y) hmem
        rw [hrepresentation] at hvalue
        have hwalk := hshown key x y hx hy hshows
        rw [hrepresentation] at hwalk
        exact ⟨hvalue.of_text, hwalk.of_representation⟩
      · exact (ih key x y hx hy hshows _).1
          ⟨hconcealed.of_mapping.2 (key, y) hmem hsensitive, hfree.of_mapping.2 (key, y) hmem⟩
    · intro hredactable
      cases hredactable with
      | leaf h => cases h
      | mapping hnokey hput hmissed hrest =>
        have hentry : ∀ entry ∈ out, entry.1 ∉ policy.val.sensitiveValues.items ∧
            (Sensitive policy.val.sensitiveFields path entry.1 →
              entry.2 = .str policy.val.representation) ∧
            (¬Sensitive policy.val.sensitiveFields path entry.1 →
              Concealed policy.val.sensitiveFields policy.val.representation
                (path ++ [entry.1]) entry.2) ∧
            ValueFree policy.val.sensitiveValues entry.2 := by
          intro entry hentry
          have hy := get_of_mem hstrict hentry
          obtain ⟨x, hx⟩ : ∃ x, items.get entry.1 = some x :=
            Option.isSome_iff_exists.1 (by rw [← hkeys, hy]; rfl)
          refine ⟨hnokey _ x hx, ?_⟩
          cases hhides : (redaction policy).hides looked entry.1 with
          | true =>
            rw [hhidden _ x _ hx hy hhides]
            exact ⟨fun _ => rfl, fun _ => .leaf rfl, .text (hput _ x hx hhides)⟩
          | false =>
            have hwalk := hshown _ x _ hx hy hhides
            by_cases hsensitive : Sensitive policy.val.sensitiveFields path entry.1
            · obtain ⟨hnotvalue, value, rfl, hvalue⟩ := hmissed _ x hx hhides hsensitive
              have hout : entry.2 = .str policy.val.representation := by
                generalize entry.2 = y at hwalk
                cases hwalk with
                | text => rw [hvalue]
                | leaf _ hne => exact absurd rfl (hne value)
              rw [hout]
              exact ⟨fun _ => rfl, fun h => absurd hsensitive h, .text hnotvalue⟩
            · have hboth := (ih _ x _ hx hy hhides _).2 (hrest _ x hx hhides hsensitive)
              exact ⟨fun h => absurd h hsensitive, fun _ => hboth.1, hboth.2⟩
        exact ⟨.mapping (fun entry h => (hentry entry h).2.1) fun entry h => (hentry entry h).2.2.1,
          .mapping (fun entry h => (hentry entry h).1) fun entry h => (hentry entry h).2.2.2⟩

end Redacting

section Serialized

variable (textOf : PyValue → String) (isoformat : DateTime → String) (event : TelemetryEvent)
  (policy : RedactionPolicy)

/-- The entries of `raw` before `details`. -/
def envelope : List (String × String) := [
  ("correlation_id", event.val.correlationId),
  ("timestamp", isoformat event.val.timestamp),
  ("event_type", event.val.eventType),
  ("component", event.val.component),
  ("outcome", event.val.outcome),
  ("configuration_version", event.val.configurationVersion)]

def rawEntries : List (String × PyValue) :=
  (envelope isoformat event).map (fun entry => (entry.1, .str entry.2)) ++
    [("details", .frozenMapping event.val.details)]

/-- The condition under which the details of a serialized event are redacted completely. -/
def DetailsRedactable : Prop :=
  ((redaction policy).hides [] "details" = true →
    policy.val.representation ∉ policy.val.sensitiveValues.items) ∧
  ((redaction policy).hides [] "details" = false →
    Redactable policy [] [] (.mapping event.val.details))

theorem raw_distinct : (PyValue.dict ((rawEntries isoformat event).map fun entry =>
    (.str entry.1, entry.2))).Distinct := by
  refine .dict ?_ fun item hitem => ?_
  · change (["correlation_id", "timestamp", "event_type", "component", "outcome",
      "configuration_version", "details"].map PyValue.str).Nodup
    exact List.Nodup.map (fun _ _ h => PyValue.str.inj h) (by decide)
  · obtain ⟨entry, hentry, rfl⟩ := List.mem_map.1 hitem
    rcases List.mem_append.1 hentry with hentry | hentry
    · obtain ⟨field, -, rfl⟩ := List.mem_map.1 hentry
      exact .unentered rfl
    · rw [List.mem_singleton.1 hentry]
      exact .frozenMapping _

theorem raw_freezes : ∃ frozen : FrozenMapping,
    (PyValue.dict ((rawEntries isoformat event).map fun entry =>
      (.str entry.1, entry.2))).freeze = .ok (.mapping frozen) ∧
    frozen.get "details" = some (.mapping event.val.details) := by
  have hvalues : ∀ item ∈ rawEntries isoformat event, ∃ frozen, item.2.freeze = .ok frozen := by
    intro item hitem
    rcases List.mem_append.1 hitem with hitem | hitem
    · obtain ⟨field, -, rfl⟩ := List.mem_map.1 hitem
      exact ⟨_, rfl⟩
    · rw [List.mem_singleton.1 hitem]
      exact ⟨_, rfl⟩
  obtain ⟨entries, hentries⟩ := (PyValue.freezeEntries_returns_iff _).2 hvalues
  have hsteps := PyValue.freezeEntries_ok_iff.1 hentries
  have hnodup : (entries.map Prod.fst).Nodup := by
    rw [← PyValue.freezesTo_keys hsteps]
    change ["correlation_id", "timestamp", "event_type", "component", "outcome",
      "configuration_version", "details"].Nodup
    decide
  refine ⟨PyValue.arranged entries, ?_, ?_⟩
  · rw [PyValue.freeze_textDict, hentries]
    rfl
  · rw [FrozenMapping.get, lookup_of_perm hnodup (PyValue.arranged_perm entries),
      PyValue.freezesTo_lookup hsteps]
    exact ⟨.frozenMapping event.val.details, rfl, rfl⟩

/-- A serialized event has details, walked from the root or replaced as a whole. -/
theorem serialized_details : ∃ serialized details,
    serializeRedacted textOf isoformat event policy = .ok serialized ∧
    serialized.get "details" = some details ∧
    ((redaction policy).hides [] "details" = true → details = .str policy.val.representation) ∧
    ((redaction policy).hides [] "details" = false →
      (redaction policy).Conceals [] (.mapping event.val.details) details) := by
  obtain ⟨frozen, hfrozen, hdetails⟩ := raw_freezes isoformat event
  obtain ⟨out, hout, hconceals⟩ := Concealment.freeze_conceal (redaction policy) textOf _
    (raw_distinct isoformat event) [] _ hfrozen
  cases hconceals with
  | leaf h => cases h
  | @mapping _ _ serialized _ hkeys hhidden hshown =>
    obtain ⟨details, hget⟩ : ∃ details, serialized.get "details" = some details :=
      Option.isSome_iff_exists.1 (by rw [hkeys, hdetails]; rfl)
    exact ⟨serialized, details, congrArg (· >>= PyValue.asserted) hout, hget,
      hhidden "details" _ _ hdetails hget, hshown "details" _ _ hdetails hget⟩

/-- A serialized event has details, and they are redacted completely exactly when the
event's details are redactable under the policy. -/
theorem redaction_complete_iff : ∃ serialized details,
    serializeRedacted textOf isoformat event policy = .ok serialized ∧
    serialized.get "details" = some details ∧
    ((Concealed policy.val.sensitiveFields policy.val.representation [] details ∧
      ValueFree policy.val.sensitiveValues details) ↔ DetailsRedactable event policy) := by
  obtain ⟨serialized, details, hserialized, hget, hhidden, hshown⟩ :=
    serialized_details textOf isoformat event policy
  refine ⟨serialized, details, hserialized, hget, ?_⟩
  unfold DetailsRedactable
  cases hhides : (redaction policy).hides [] "details" with
  | true =>
    rw [hhidden hhides]
    exact ⟨fun h => ⟨fun _ => h.2.of_text, fun h => by cases h⟩,
      fun h => ⟨.leaf rfl, .text (h.1 rfl)⟩⟩
  | false =>
    rw [redacted_iff (hshown hhides) []]
    exact ⟨fun h => ⟨fun h => (by cases h), fun _ => h⟩, fun h => h.2 rfl⟩

end Serialized

namespace Sample

def telemetryEvent : TelemetryEvent := ⟨{
  correlationId := "correlation-1"
  timestamp := time 0
  eventType := "security_decision"
  component := "security"
  outcome := "rejected"
  configurationVersion := "1"
  details := [("details", .mapping [("token", .str "raw")])] }, by decide +kernel⟩

def redactionPolicy : RedactionPolicy :=
  ⟨{ sensitiveFields := .singleton "details.token" }, by decide +kernel⟩

end Sample

/-- The token is serialized as it is: its path is looked up as `token`. -/
theorem nested_token_serialized : ¬∀ (textOf : PyValue → String) (isoformat : DateTime → String)
    (event : TelemetryEvent) (policy : RedactionPolicy) (serialized : FrozenMapping)
    (details : FrozenValue), serializeRedacted textOf isoformat event policy = .ok serialized →
    serialized.get "details" = some details →
    Concealed policy.val.sensitiveFields policy.val.representation [] details ∧
      ValueFree policy.val.sensitiveValues details := by
  intro h
  obtain ⟨serialized, details, hserialized, hget, -, hshown⟩ :=
    serialized_details (fun _ => "") (fun _ => "") Sample.telemetryEvent Sample.redactionPolicy
  have hredactable := (redacted_iff (hshown (by decide +kernel)) []).1
    (h _ _ _ _ _ _ hserialized hget)
  cases hredactable with
  | leaf h => cases h
  | mapping _ _ _ hrest =>
    have hnested := hrest "details" (.mapping [("token", .str "raw")]) rfl (by decide +kernel)
      (by decide +kernel)
    cases hnested with
    | leaf h => cases h
    | mapping _ _ hmissed _ =>
      obtain ⟨-, value, hvalue, htext⟩ :=
        hmissed "token" (.str "raw") rfl (by decide +kernel) (by decide +kernel)
      rw [← FrozenValue.str.inj hvalue] at htext
      exact absurd htext (by decide +kernel)

end AiRetrieval
