import AiRetrieval.Sanity.EffectRecords
import AiRetrieval.Spec.WriteBack

/-! The write-back executor moves the world only through the effect recovery: the gate
and the audit ask the outside and store an object. Its request is the command's. -/

namespace AiRetrieval

theorem CommandMutation.digestOf_returns (sha256 : Bytes → String) (document : Document) :
    ∃ d, digestOf sha256 document = .ok d := by
  have hclean : ∀ p ∈ document.sorted.write JsonValue.asciiStyle fun _ => [],
      (p.char?).isSome = true := JsonValue.write_clean (fun _ _ h => (by cases h)) document.sorted
  obtain ⟨s, hs⟩ := Option.isSome_iff_exists.1 (CodeText.string?_isSome_iff.2 hclean)
  unfold digestOf encodeText
  rw [hs]
  exact ⟨_, rfl⟩

namespace BatchWriteBackExecutor

open Program AiRetrieval.Action

variable {env : Environment} {command : WriteBackCommand} {context : ExecutionContext}

theorem effectRequest_made {payload : Bytes} {request : EffectRequest}
    (h : effectRequest env command payload = .ok request) :
    request.val.claim = command.val.claim ∧
      request.val.effect.parameters = command.val.parameters := by
  obtain ⟨rowScopeDigest, -, h⟩ := except_bind_eq_ok.1 h
  obtain ⟨mutationDigest, -, h⟩ := except_bind_eq_ok.1 h
  rw [Checked.make_eq_ok.1 h]
  exact ⟨rfl, rfl⟩

theorem emitAudit_quiet (snapshot : Option AuthorizationSnapshot)
    (result : WriteBackExecutionResult) (request : Option EffectRequest) :
    Moves Quiet (emitAudit env command context snapshot result request) := by
  unfold emitAudit
  refine moves_bind (moves_lift _) fun rowScopeDigest => moves_bind (ask_quiet _) fun now =>
    moves_bind (moves_lift _) fun event => moves_handling (ask_quiet _) fun error y hy => ?_
  exact caught_moves (moves_pure ()) hy

theorem finish_quiet (snapshot : Option AuthorizationSnapshot) (request : Option EffectRequest)
    (result : WriteBackExecutionResult) :
    Moves Quiet (finish env command context snapshot request result) :=
  moves_bind (emitAudit_quiet _ _ _) fun _ => moves_pure _

section Relation

variable {R : World → World → Prop} [IsPreorder World R]

theorem executeApproved_moves (hquiet : ∀ w w', Quiet w w' → R w w')
    (hrecover : ∀ request, Moves R (EffectRecoveryCoordinator.execute env request context))
    (payload : Bytes) (outputReference : ObjectReference) :
    Moves R (executeApproved env command context payload outputReference) := by
  unfold executeApproved
  refine moves_bind (moves_lift _) fun request =>
    moves_bind (moves_mono (ask_quiet _) hquiet) fun snapshot =>
    moves_bind (moves_mono (ask_quiet _) hquiet) fun checkedAt =>
    moves_bind (moves_lift _) fun reasons => ?_
  refine moves_ite (moves_mono (finish_quiet _ _ _) hquiet) ?_
  refine moves_bind (moves_attempt (hrecover request)) fun recovered => ?_
  split
  · exact moves_throw _
  · exact moves_mono (finish_quiet _ _ _) hquiet

theorem perform_moves (hquiet : ∀ w w', Quiet w w' → R w w')
    (hrecover : ∀ request, Moves R (EffectRecoveryCoordinator.execute env request context)) :
    Moves R (perform env command context) := by
  unfold perform
  have hfinish : ∀ snapshot request result,
      Moves R (finish env command context snapshot request result) :=
    fun _ _ _ => moves_mono (finish_quiet _ _ _) hquiet
  refine moves_bind (moves_lift _) fun _ => moves_ite (hfinish _ _ _) (moves_ite (hfinish _ _ _) ?_)
  refine moves_bind (moves_lift _) fun payload =>
    moves_bind (moves_mono (onObjects_quiet _) hquiet) fun reference => ?_
  split
  · exact executeApproved_moves hquiet hrecover _ _
  · exact hfinish _ _ _
  · exact hfinish _ _ _

theorem execute_moves (hquiet : ∀ w w', Quiet w w' → R w w')
    (hrecover : ∀ request, Moves R (EffectRecoveryCoordinator.execute env request context))
    (hnote : ∀ w writeBacks, R w { w with writeBacks := writeBacks }) :
    Moves R (execute env command context) :=
  moves_bind moves_get fun _ => moves_bind (perform_moves hquiet hrecover) fun _ =>
    moves_bind (moves_modify fun w => hnote w _) fun _ => moves_pure _

end Relation

end BatchWriteBackExecutor

end AiRetrieval
