import AiRetrieval.Proofs.CapacityLimits
import AiRetrieval.Proofs.LeaseExclusion
import AiRetrieval.Sanity.SensitiveEntries
import AiRetrieval.Spec.SecurityGateway

/-! What reaches a provider: the masked payload of a request that every decision of the
bound policy allowed. -/

namespace AiRetrieval

open Program

namespace ProtectedModelInvoker

def SameRequests (s t : Disclosures) : Prop := t.requests = s.requests

instance : IsPreorder Disclosures SameRequests where
  refl _ := rfl
  trans _ _ _ h h' := h'.trans h

/-- A run hands out the request. -/
def Submits (x : Disclosing PyValue) (s : Disclosures) (request : SecuredModelRequest) : Prop :=
  (x.after s).requests = s.requests ++ [request]

theorem SameRequests.not_submits {x : Disclosing PyValue} (h : Moves SameRequests x)
    (s : Disclosures) (request : SecuredModelRequest) : ¬Submits x s request := by
  intro hsubmits
  have hsame : (x.after s).requests = s.requests := h s
  rw [Submits, hsame] at hsubmits
  simpa using congrArg List.length hsubmits

variable {ports : GatewayPorts}

theorem emit_same (event : TelemetryEvent) (policy : RedactionPolicy) :
    Moves SameRequests (emit ports event policy) :=
  moves_bind (moves_lift _) fun _ => moves_bind (moves_modify fun _ => rfl) fun _ => moves_lift _

theorem reject_same (context : ExecutionContext) (policy : Option SecurityPolicy)
    (serviceIdentity reason code : String) :
    Moves SameRequests (reject ports context policy serviceIdentity reason code) := by
  unfold reject
  exact moves_bind (moves_lift _) fun _ => moves_bind (moves_lift _) fun _ =>
    moves_bind (moves_lift _) fun _ => moves_bind (moves_lift _) fun _ =>
      moves_bind (moves_attempt (emit_same _ _)) fun _ => moves_throw _

variable {operation : ModelOperation} {candidate : ModelCandidate} {payload : PyValue}
  {serviceIdentity : String} {context : ExecutionContext} {s : Disclosures}
  {request : SecuredModelRequest}

theorem discloseTo_submits {policy : SecurityPolicy}
    (h : Submits (discloseTo ports operation candidate payload serviceIdentity context policy) s
      request) :
    secure ports operation candidate payload serviceIdentity policy = .ok request := by
  rw [Submits, after, discloseTo] at h
  cases hauthentication : ports.authenticate serviceIdentity candidate.val.providerId context with
  | error e =>
    rw [hauthentication, exec_bind_of_error (exec_liftExcept _ _)] at h
    simp at h
  | ok authentication =>
    rw [hauthentication, exec_bind_of_ok (exec_liftExcept _ _)] at h
    split at h
    · exact absurd h (SameRequests.not_submits (reject_same _ _ _ _ _) s request)
    · cases hsecure : secure ports operation candidate payload serviceIdentity policy with
      | error e =>
        rw [hsecure, exec_bind_of_error (exec_liftExcept _ _)] at h
        simp at h
      | ok secured =>
        rw [hsecure, exec_bind_of_ok (exec_liftExcept _ _), exec_bind_of_ok (exec_modify _ _),
          exec_liftExcept] at h
        simpa using h

/-- The request a run hands out is the one built under the bound policy. -/
theorem invoke_submits {policies : SecurityPolicyRegistry}
    (h : Submits (invoke ports policies operation candidate payload serviceIdentity context) s
      request) :
    ∃ policy, policies.resolve context.configuration.securityPolicyVersion = some policy ∧
      secure ports operation candidate payload serviceIdentity policy = .ok request := by
  unfold invoke at h
  cases hpolicy : policies.resolve context.configuration.securityPolicyVersion with
  | none =>
    rw [hpolicy] at h
    exact absurd h (SameRequests.not_submits (reject_same _ _ _ _ _) s request)
  | some policy =>
    rw [hpolicy] at h
    refine ⟨policy, rfl, ?_⟩
    have hreject : ∀ reason code,
        ¬Submits (reject ports context (some policy) serviceIdentity reason code) s request :=
      fun _ _ => SameRequests.not_submits (reject_same _ _ _ _ _) s request
    dsimp only at h
    split at h
    · exact absurd h (hreject _ _)
    split at h
    · exact absurd h (hreject _ _)
    split at h
    · exact absurd h (hreject _ _)
    split at h
    · exact absurd h (hreject _ _)
    split at h
    · exact absurd h (hreject _ _)
    split at h
    · exact absurd h (hreject _ _)
    exact discloseTo_submits h

theorem secure_payload {policy : SecurityPolicy}
    (h : secure ports operation candidate payload serviceIdentity policy = .ok request) :
    (mask ports.textOf payload policy []).freeze = .ok (.mapping request.val.payload) := by
  unfold secure at h
  obtain ⟨frozen, hfrozen, h⟩ := except_bind_eq_ok.1 h
  obtain ⟨encryption, -, h⟩ := except_bind_eq_ok.1 h
  rw [Checked.make_eq_ok.1 h]
  obtain ⟨value, hvalue, hasserted⟩ := except_bind_eq_ok.1 hfrozen
  cases value with
  | mapping items =>
    cases hasserted
    exact hvalue
  | _ => cases hasserted

structure HandedOut (policy : SecurityPolicy) (frozen : FrozenMapping)
    (request : SecuredModelRequest) : Prop where
  run : ∃ (ports : GatewayPorts) (policies : SecurityPolicyRegistry) (operation : ModelOperation)
    (candidate : ModelCandidate) (payload : PyValue) (serviceIdentity : String)
    (context : ExecutionContext) (s : Disclosures),
    policies.resolve context.configuration.securityPolicyVersion = some policy ∧
    payload.Distinct ∧ payload.freeze = .ok (.mapping frozen) ∧
    Submits (invoke ports policies operation candidate payload serviceIdentity context) s request

theorem HandedOut.conceals {policy : SecurityPolicy} {frozen : FrozenMapping}
    (h : HandedOut policy frozen request) :
    (masking policy).Conceals [] (.mapping frozen) (.mapping request.val.payload) := by
  obtain ⟨ports, policies, operation, candidate, payload, serviceIdentity, context, s, hpolicy,
    hdistinct, hfreeze, hsubmits⟩ := h.run
  obtain ⟨policy', hpolicy', hsecure⟩ := invoke_submits hsubmits
  rw [hpolicy] at hpolicy'
  cases hpolicy'
  obtain ⟨out, hout, hconceals⟩ :=
    Concealment.freeze_conceal (masking policy) ports.textOf payload hdistinct [] _ hfreeze
  have hpayload := secure_payload hsecure
  rw [mask, hout] at hpayload
  cases hpayload
  exact hconceals

end ProtectedModelInvoker

open ProtectedModelInvoker

/-- The payload handed to the provider is masked completely and exactly when the sets in
the given payload hold nothing to conceal; two such payloads that differ only under
sensitive entries are handed out alike. -/
theorem masking_exact_iff (policy : SecurityPolicy) :
    (∀ frozen request, HandedOut policy frozen request →
      ((Concealed policy.val.sensitiveFields policy.val.maskingRepresentation []
          (.mapping request.val.payload) ∧
        SameOutside policy.val.sensitiveFields [] (.mapping frozen)
          (.mapping request.val.payload)) ↔
        SetsConcealed policy.val.sensitiveFields policy.val.maskingRepresentation []
          (.mapping frozen))) ∧
    ∀ frozen frozen' request request', HandedOut policy frozen request →
      HandedOut policy frozen' request' →
      SetsConcealed policy.val.sensitiveFields policy.val.maskingRepresentation []
        (.mapping frozen) →
      SetsConcealed policy.val.sensitiveFields policy.val.maskingRepresentation []
        (.mapping frozen') →
      EqualExcept policy.val.sensitiveFields [] (.mapping frozen) (.mapping frozen') →
      EqualExcept .none [] (.mapping request.val.payload) (.mapping request'.val.payload) :=
  ⟨fun _ _ h => masked_iff h.conceals, fun _ _ _ _ h h' hsets hsets' hequal =>
    masked_equal hequal h.conceals h'.conceals hsets hsets'⟩

namespace Sample

def securityPolicy : SecurityPolicy := ⟨{
  version := "security-1"
  available := true
  valid := true
  decision := .allow
  allowedProviderIds := .singleton "provider-a"
  allowedDataClasses := .none
  sensitiveFields := .singleton "secret"
  transportEncryption := some "tls-1.3"
  persistenceEncryption := some "kms-key-1" }, by decide +kernel⟩

def gatewayPorts : GatewayPorts where
  textOf _ := ""
  isoformat _ := "2025-01-01T00:00:00+00:00"
  clock := .ok (time 0)
  authenticate identity _ _ := .ok ⟨true, identity, "allow"⟩
  invoke _ _ := .ok (.str "ok")
  emit _ := .ok ()

def securedContext : ExecutionContext :=
  { context with configuration := ⟨configuration, [], some "security-1", none⟩ }

def modelOperation : ModelOperation := firstOperation

theorem serviceTexts : blank "model-service" = false ∧ blank "security-1" = false := by
  decide +kernel

def securedRequest (payload : FrozenMapping) : SecuredModelRequest := ⟨{
  operation := modelOperation
  candidate := candidate
  payload := payload
  serviceIdentity := "model-service"
  policyVersion := "security-1"
  dataClasses := []
  encryption := ⟨⟨"tls-1.3", "kms-key-1"⟩, by decide +kernel⟩ },
    require_of serviceTexts⟩

def disclosing (payload : PyValue) : Disclosing PyValue :=
  invoke gatewayPorts (Dict.empty.insert "security-1" securityPolicy) modelOperation candidate
    payload "model-service" securedContext

/-- A run over a payload with a sensitive entry. -/
theorem handed_secret : HandedOut securityPolicy [("secret", .str "raw")]
    (securedRequest [("secret", .str "[MASKED]")]) :=
  ⟨gatewayPorts, Dict.empty.insert "security-1" securityPolicy, modelOperation, candidate,
    .dict [(.str "secret", .str "raw")], "model-service", securedContext, ⟨[], []⟩, rfl,
    .dict (List.nodup_singleton _) (by simpa using .unentered rfl), rfl,
    (rfl : Submits (disclosing (.dict [(.str "secret", .str "raw")])) ⟨[], []⟩
      (securedRequest [("secret", .str "[MASKED]")]))⟩

def secretRows : FrozenMapping := [("rows", .frozenset [.mapping [("secret", .str "raw")]])]

/-- A run over a payload with a sensitive entry inside a set. -/
theorem handed_rows : HandedOut securityPolicy secretRows (securedRequest secretRows) :=
  ⟨gatewayPorts, Dict.empty.insert "security-1" securityPolicy, modelOperation, candidate,
    .dict [(.str "rows", .set [.frozenMapping [("secret", .str "raw")]])], "model-service",
    securedContext, ⟨[], []⟩, rfl, .dict (List.nodup_singleton _) (by simpa using .unentered rfl),
    rfl, (rfl : Submits (disclosing (.dict [(.str "rows",
      .set [.frozenMapping [("secret", .str "raw")]])])) ⟨[], []⟩ (securedRequest secretRows))⟩

end Sample

/-- The raw value under `secret`, inside a set, reaches the provider. -/
theorem secret_in_set_disclosed : ¬∀ (policy : SecurityPolicy) (frozen : FrozenMapping)
    (request : SecuredModelRequest), HandedOut policy frozen request →
    Concealed policy.val.sensitiveFields policy.val.maskingRepresentation []
      (.mapping request.val.payload) := by
  intro h
  have hconcealed := h _ _ _ Sample.handed_rows
  have hset := hconcealed.of_mapping.2 ("rows", .frozenset [.mapping [("secret", .str "raw")]])
    (List.mem_singleton.2 rfl) (by decide +kernel)
  have hrow := hset.of_frozenset (.mapping [("secret", .str "raw")]) (List.mem_singleton.2 rfl)
  have hvalue := hrow.of_mapping.1 ("secret", .str "raw") (List.mem_singleton.2 rfl)
    (by decide +kernel)
  exact absurd (FrozenValue.str.inj hvalue) (by decide +kernel)

theorem masking_exact_iff_sample :
    Concealed Sample.securityPolicy.val.sensitiveFields
      Sample.securityPolicy.val.maskingRepresentation [] (.mapping [("secret", .str "[MASKED]")]) ∧
    SameOutside Sample.securityPolicy.val.sensitiveFields [] (.mapping [("secret", .str "raw")])
      (.mapping [("secret", .str "[MASKED]")]) := by
  refine ((masking_exact_iff Sample.securityPolicy).1 _ _ Sample.handed_secret).2
    (.mapping fun key x hget hsensitive => ?_)
  have hkey := mem_of_lookup hget
  rw [List.mem_singleton, Prod.mk.injEq] at hkey
  rw [hkey.1] at hsensitive
  exact absurd (by decide +kernel) hsensitive

end AiRetrieval
