import AiRetrieval.Proofs.StaleClaims
import AiRetrieval.Sanity.EffectMoves
import AiRetrieval.Spec.EffectMachine

/-! When a mutation is asked of the adapter under the lease of its request's claim. The
coordinator looks at the durable records and the adapter's evidence first, and at the
lease only when it restores the checkpoint afterwards. -/

namespace AiRetrieval

open Program EffectRecoveryCoordinator

/-- At `now` the item is in progress under an unexpired lease of this very claim. -/
def LiveLease (claim : WorkClaim) (s : WorkRepository) (now : DateTime) : Prop :=
  ∃ item ∈ s.items.get? (claimKey claim), item.val.state = .inProgress ∧
    item.val.leaseOwner = claim.item.val.leaseOwner ∧
    item.val.attemptCount = claim.item.val.attemptCount ∧
    ∃ expiry ∈ item.val.leaseExpiresAt, now < expiry

instance (claim : WorkClaim) (s : WorkRepository) (now : DateTime) :
    Decidable (LiveLease claim s now) :=
  inferInstanceAs (Decidable (∃ item ∈ s.items.get? (claimKey claim), _))

def AdapterCall.underLiveLease (call : AdapterCall) : Prop :=
  ∃ now ∈ call.clock.toOption, LiveLease call.request.val.claim call.store now

instance (call : AdapterCall) : Decidable call.underLiveLease :=
  inferInstanceAs (Decidable (∃ now ∈ call.clock.toOption, _))

/-- The clock reads a time at which the request's claim holds a live lease. -/
def LiveAt (env : Environment) (request : EffectRequest) (w : World) (moment : Nat) : Prop :=
  ∃ now ∈ (env.clock moment).toOption, LiveLease request.val.claim w.store now

/-- Before `execute`: if nothing answers the request, so that the mutation itself will be
asked for, the claim's lease is live when it is. A non-shared mutation is asked for one
moment later, after the verification. -/
def MutatesLive (env : Environment) (request : EffectRequest) (context : ExecutionContext)
    (w : World) : Prop :=
  Reaches request context w →
    match request.val.boundary with
    | .shared => LiveAt env request w w.moment
    | .nonShared => notInPlace env request context w → LiveAt env request w (w.moment + 1)

theorem callsMade_live_iff (env : Environment) (request : EffectRequest)
    (context : ExecutionContext) (w : World) :
    (∀ call ∈ callsMade env request context w, call.mutates → call.underLiveLease) ↔
      MutatesLive env request context w := by
  unfold callsMade MutatesLive
  by_cases hr : Reaches request context w
  · rw [if_pos hr]
    cases request.val.boundary with
    | shared =>
      simp only [List.mem_singleton, forall_eq, hr, forall_const]
      exact ⟨fun h => h (sharedCall_mutates env request context w), fun h _ => h⟩
    | nonShared =>
      by_cases hn : notInPlace env request context w
      · simp only [hn, if_true, List.mem_cons, List.not_mem_nil, or_false, forall_eq_or_imp,
          forall_eq, hr, forall_const]
        exact ⟨fun h => h.2 (nonSharedCall_mutates env request context _),
          fun h => ⟨fun hm => absurd hm (not_verifyCall_mutates env request context w), fun _ => h⟩⟩
      · simp only [hn, if_false, List.mem_singleton, forall_eq, hr, forall_const]
        exact ⟨fun _ h => h.elim, fun _ hm =>
          absurd hm (not_verifyCall_mutates env request context w)⟩
  · simp [hr]

def adapterCallsOf (env : Environment) (t : EffectTransition) : List AdapterCall :=
  match t.input with
  | .execute request context => callsMade env request context t.before
  | .work _ => []

theorem effectMachine_calls (env : Environment) (call : EffectCall) (w : World) :
    (effectMachine env call w).2.adapterCalls =
      w.adapterCalls ++ adapterCallsOf env ((effectMachine env).transition w call) := by
  unfold effectMachine adapterCallsOf Machine.transition
  cases call with
  | execute request context =>
    rw [EffectCall.action, exec_map]
    exact execute_calls env request context w
  | work call =>
    rw [EffectCall.action, exec_map, List.append_nil]
    rfl

/-- Mutations only under a live lease: every mutation asked for in a run was under a live
lease of its claim if and only if every `execute` of the run started where it asks for
none or holds one. -/
theorem mutations_live_iff (env : Environment) (calls : List EffectCall) :
    (∀ call ∈ ((effectMachine env).run .empty calls).adapterCalls,
      call.mutates → call.underLiveLease) ↔
    ∀ t ∈ (effectMachine env).history .empty calls, ∀ request context,
      t.input = .execute request context → MutatesLive env request context t.before := by
  rw [Machine.run_log World.adapterCalls (adapterCallsOf env) (effectMachine_calls env)]
  simp only [World.empty, List.nil_append, List.mem_flatMap, forall_exists_index, and_imp]
  constructor
  · intro h t ht request context hin
    refine (callsMade_live_iff env request context t.before).1 fun call hc => h call t ht ?_
    rw [adapterCallsOf, hin]
    exact hc
  · intro h call t ht hc
    cases hin : t.input with
    | execute request context =>
      rw [adapterCallsOf, hin] at hc
      exact (callsMade_live_iff env request context t.before).2 (h t ht request context hin) call hc
    | work call =>
      rw [adapterCallsOf, hin] at hc
      cases hc

namespace Sample

def effect : ApprovedEffect := ⟨"bulk-job:item-1", .node .update [] (some "results"), []⟩

/-- A request for the sample item, built from its first claim. -/
def effectRequest : EffectRequest :=
  ⟨⟨claimOf 1 10, effect, "results", "row-scope", "mutation", .shared⟩, by decide +kernel⟩

end Sample

/-- The claim ran out at 10; at 21 the mutation is asked of the adapter all the same. -/
theorem mutation_after_expiry :
    ¬∀ call ∈ ((effectMachine (Sample.environment 21)).run .empty
      [.work Sample.create, .work (Sample.claimAt "worker-resumed" 0),
        .execute Sample.effectRequest Sample.context]).adapterCalls,
      call.mutates → call.underLiveLease := by
  decide +kernel

end AiRetrieval
