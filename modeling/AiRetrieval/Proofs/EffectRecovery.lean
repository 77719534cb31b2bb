import AiRetrieval.Proofs.LiveMutations
import AiRetrieval.Sanity.EffectOutcomes

/-! One logical mutation per key: over any run of `execute` calls, with any work on the
store between them, the adapter is asked for no mutation of a key after it gave a final
answer for it. -/

namespace AiRetrieval

open Program WorkRepository EffectRecoveryCoordinator

/-- The call saves an outcome of an effect without `execute`. -/
def StoreCall.saves : StoreCall → Bool
  | .saveEffect _ => true
  | .saveReconciliation _ => true
  | _ => false

/-- Outcomes are saved by `execute` alone, the claim of an executed request is of a stored
item, and committed evidence echoes the request. -/
def Admitted (env : Environment) (t : EffectTransition) : Prop :=
  match t.input with
  | .execute request context =>
    Genuine request.val.claim t.before.store ∧ Echoes env request context t.before.moment
  | .work call => call.saves = false

instance (env : Environment) (t : EffectTransition) : Decidable (Admitted env t) := by
  unfold Admitted
  split <;> infer_instance

structure RecoveryRun (env : Environment) (calls : List EffectCall) : Prop where
  aware : AwareClock env
  admitted : ∀ t ∈ (effectMachine env).history .empty calls, Admitted env t

theorem acquisition_genuine {s s' : WorkRepository} {call : StoreCall} {key : Key}
    {claim : WorkClaim} (hs : s.StoreInvariant)
    (hc : acquisitionOf key (storeMachine.transition s call) = some claim)
    (hg : Grows (storeMachine call s).2 s') : Genuine claim s' := by
  have hmove := call_itemMove call s key
  rw [hc] at hmove
  have hs' := (call_change call s).invariant hs
  generalize hb : s.items.get? key = before at hmove
  generalize ha : (storeMachine call s).2.items.get? key = after at hmove
  cases hmove with
  | acquired acquired value =>
    have hw := work?_of_get? ha
    have hkey : key = claimKey claim := hs'.announced.keyed key _ hw
    exact hg.work _ _ (hkey ▸ hw)

/-- What the run has decided so far: each final answer is on record, at most one outcome
is on record for a key, and nothing follows a final answer. -/
structure Settled (w : World) : Prop where
  recorded : ∀ call ∈ w.adapterCalls, call.decisive → RecordedAs w.store call.request
  exclusive : ∀ key, w.store.effects.get? key = none ∨ w.store.reconciliations.get? key = none
  once : w.adapterCalls.Pairwise fun a b =>
    a.decisive → requestKey b.request ≠ requestKey a.request

theorem empty_settled : Settled .empty :=
  ⟨fun _ h => absurd h List.not_mem_nil, fun _ => Or.inl rfl, List.Pairwise.nil⟩

theorem SameOutcomes.exclusive {s s' : WorkRepository} (h : SameOutcomes s s') {key : Key}
    (hx : s.effects.get? key = none ∨ s.reconciliations.get? key = none) :
    s'.effects.get? key = none ∨ s'.reconciliations.get? key = none := by
  rwa [h.1, h.2]

theorem Decided.exclusive {request : EffectRequest} {s s' : WorkRepository}
    (h : Decided request s s') (he : s.effects.get? (requestKey request) = none)
    (hr : s.reconciliations.get? (requestKey request) = none) {key : Key}
    (hx : s.effects.get? key = none ∨ s.reconciliations.get? key = none) :
    s'.effects.get? key = none ∨ s'.reconciliations.get? key = none := by
  cases h with
  | effect record same effects reconciliations =>
    rw [effects, reconciliations]
    by_cases hkey : key = requestKey request
    · exact Or.inr (hkey ▸ hr)
    · rwa [Dict.get?_insert_of_ne _ _ hkey]
  | reconciliation record same effects reconciliations =>
    rw [effects, reconciliations]
    by_cases hkey : key = requestKey request
    · exact Or.inl (hkey ▸ he)
    · rwa [Dict.get?_insert_of_ne _ _ hkey]

theorem work_sameOutcomes {call : StoreCall} (h : call.saves = false) (s : WorkRepository) :
    SameOutcomes s (storeMachine call s).2 := by
  cases call <;> simp only [storeMachine, StoreCall.program, exec_map]
  case create submission context ref identifier =>
    generalize hr : (issue submission context ref identifier).exec s = r
    cases hr ▸ issue_outcome s submission context ref identifier <;> exact ⟨rfl, rfl⟩
  case claim k owner now d =>
    generalize hr : (claim k.1 k.2 owner now d).exec s = r
    cases hr ▸ claim_outcome s k.1 k.2 owner now d <;> exact ⟨rfl, rfl⟩
  case renew k owner now d =>
    generalize hr : (renew k.1 k.2 owner now d).exec s = r
    cases hr ▸ renew_outcome s k.1 k.2 owner now d <;> exact ⟨rfl, rfl⟩
  case checkpoint k owner stage outcome now ref =>
    exact checkpoint_sameOutcomes k.1 k.2 owner stage outcome now ref s
  case terminalize k owner state code details now ref =>
    generalize hr : (terminalize k.1 k.2 owner state code details now ref).exec s = r
    cases hr ▸ terminalize_outcome s k.1 k.2 owner state code details now ref <;>
      exact ⟨rfl, rfl⟩
  case markPublished eventId publishedAt =>
    generalize hr : (markPublished eventId publishedAt).exec s = r
    cases hr ▸ markPublished_outcome s eventId publishedAt <;> exact ⟨rfl, rfl⟩
  case saveEffect => cases h
  case saveReconciliation => cases h
  case recordPersistenceFailure outcome =>
    obtain ⟨failures, hr⟩ := recordPersistenceFailure_outcome s outcome
    rw [hr]
    exact ⟨rfl, rfl⟩

theorem work_settled {call : StoreCall} (hsaves : call.saves = false) {w : World}
    (h : Settled w) : Settled { w with store := (storeMachine call w.store).2 } where
  recorded a ha hd := (h.recorded a ha hd).mono (call_change call w.store).grows
  exclusive key := (work_sameOutcomes hsaves w.store).exclusive (h.exclusive key)
  once := h.once

section Execute

variable {env : Environment} {request : EffectRequest} {context : ExecutionContext} {w : World}

/-- A key that is decided in this `execute` had no final answer before. -/
theorem Settled.undecided (h : Settled w) (hr : Reaches request context w) {call : AdapterCall}
    (hc : call ∈ w.adapterCalls) (hd : call.decisive) :
    requestKey request ≠ requestKey call.request := by
  intro hkey
  have hrec := h.recorded call hc hd
  rw [RecordedAs, ← hkey, hr.noEffect, hr.noReconciliation] at hrec
  rcases hrec with hrec | hrec <;> cases hrec

theorem execute_settled (hclock : AwareClock env) (hclaim : Genuine request.val.claim w.store)
    (hecho : Echoes env request context w.moment) (h : Settled w) :
    Settled ((execute env request context).after w) := by
  have hgrows : Grows w.store ((execute env request context).after w).store :=
    (execute_changes w).grows
  have hrecords := execute_records hclock hclaim hecho
  constructor
  · intro call hc hd
    rw [execute_calls, List.mem_append] at hc
    rcases hc with hc | hc
    · exact (h.recorded call hc hd).mono hgrows
    · rcases hrecords with ⟨-, hdecided⟩ | ⟨hnone, -⟩
      · rw [(callsMade_request hc).1]
        exact hdecided.recordedAs
      · exact absurd ⟨call, hc, hd⟩ hnone
  · intro key
    rcases hrecords with ⟨⟨call, hc, -⟩, hdecided⟩ | ⟨-, hsame⟩
    · have hr := (callsMade_request hc).2
      exact hdecided.exclusive hr.noEffect hr.noReconciliation (h.exclusive key)
    · exact hsame.exclusive (h.exclusive key)
  · rw [execute_calls, List.pairwise_append]
    refine ⟨h.once, ?_, fun a ha b hb hd => ?_⟩
    · exact (callsMade_ordered env request context w).imp fun hn hd => absurd hd hn
    · obtain ⟨hreq, hr⟩ := callsMade_request hb
      rw [hreq]
      exact h.undecided hr ha hd

end Execute

theorem step_settled {env : Environment} (hclock : AwareClock env) (call : EffectCall) (w : World)
    (hadmitted : Admitted env ((effectMachine env).transition w call)) (h : Settled w) :
    Settled (effectMachine env call w).2 := by
  cases call with
  | execute request context =>
    rw [effectMachine, EffectCall.action, exec_map]
    exact execute_settled hclock hadmitted.1 hadmitted.2 h
  | work call =>
    have hsaves : call.saves = false := hadmitted
    rw [effectMachine, EffectCall.action, exec_map]
    exact work_settled hsaves h

theorem RecoveryRun.settled {env : Environment} {calls : List EffectCall}
    (h : RecoveryRun env calls) : Settled ((effectMachine env).run .empty calls) :=
  Machine.run_invariant_on (step_settled h.aware) empty_settled calls h.admitted

/-- One logical mutation per key. After the adapter reported `COMMITTED` or `AMBIGUOUS`
for a key, no later call asks for a mutation of that key; a key never has both an effect
and a reconciliation record; and a request for a different mutation of the key is refused
with `EffectConflictError` and changes nothing (with another error when its context does
not fit it). -/
theorem one_mutation_per_key (env : Environment) (calls : List EffectCall)
    (h : RecoveryRun env calls) :
    (((effectMachine env).run .empty calls).adapterCalls.Pairwise fun a b =>
      a.decisive → requestKey b.request = requestKey a.request → ¬b.mutates) ∧
    (∀ key, ((effectMachine env).run .empty calls).store.effects.get? key = none ∨
      ((effectMachine env).run .empty calls).store.reconciliations.get? key = none) ∧
    ∀ call ∈ ((effectMachine env).run .empty calls).adapterCalls, call.decisive →
      ∀ request context, requestKey request = requestKey call.request →
        Mutation.ofRequest request ≠ Mutation.ofRequest call.request →
        ∃ error, (execute env request context).exec ((effectMachine env).run .empty calls) =
            (.error error, (effectMachine env).run .empty calls) ∧
          (Fits request context → ∃ message, error = .raised .effectConflictError message) := by
  have hs := h.settled
  refine ⟨hs.once.imp fun hn hd hkey => absurd hkey (hn hd), hs.exclusive, ?_⟩
  intro call hc hd request context hkey hne
  exact execute_conflict (hs.recorded call hc hd) (hs.exclusive _) hkey hne

namespace Sample

def committedEffect : EffectRecord :=
  ⟨{
    jobId := "bulk-job"
    itemId := "item-1"
    idempotencyKey := "bulk-job:item-1"
    targetDataset := "results"
    rowScopeDigest := "row-scope"
    mutationDigest := "mutation"
    affectedRows := 1
    transactionOutcome := "committed"
    adapterVersion := "1"
    committedAt := time 5 }, by decide +kernel⟩

/-- The application with an adapter that commits the sample request. -/
def committing (now : Int) : Environment :=
  { environment now with
    executeShared := fun _ _ _ => .ok ⟨⟨.committed, some committedEffect⟩, by decide +kernel⟩ }

def executions : List EffectCall :=
  [.work create, .work (claimAt "worker-resumed" 0), .execute effectRequest context,
    .execute effectRequest context]

end Sample

/-- The adapter committed in the first of two executions and was not called in the second. -/
theorem one_mutation_per_key_sample :
    (((effectMachine (Sample.committing 5)).run .empty Sample.executions).adapterCalls.Pairwise
      fun a b => a.decisive → requestKey b.request = requestKey a.request → ¬b.mutates) ∧
    ((effectMachine (Sample.committing 5)).run .empty
      Sample.executions).store.effects.get? Sample.key = some Sample.committedEffect ∧
    ((effectMachine (Sample.committing 5)).run .empty Sample.executions).adapterCalls.length = 1 :=
  ⟨(one_mutation_per_key (Sample.committing 5) Sample.executions
    ⟨fun _ => ⟨Sample.time 5, rfl, rfl⟩, by decide +kernel⟩).1, by decide +kernel,
      by decide +kernel⟩

end AiRetrieval
