import AiRetrieval.Proofs.LeaseExclusion
import AiRetrieval.Sanity.CoordinatorOutcomes
import Mathlib.Data.List.Induction

/-! What a write presented with a claim may change. The store compares the owner's name
and the lease, not the claim; a claim is known to be the latest acquisition only while
its owner's name was not used to acquire the item again. -/

namespace AiRetrieval

open WorkRepository Program AiRetrieval.Action

def acquisitions (key : Key) (calls : List StoreCall) : List WorkClaim :=
  (storeMachine.history .empty calls).filterMap (acquisitionOf key)

/-- The run acquired `claim`, and later acquisitions of the item used other owner names. -/
def NotReacquired (key : Key) (calls : List StoreCall) (claim : WorkClaim) : Prop :=
  ∃ earlier later, acquisitions key calls = earlier ++ claim :: later ∧
    ∀ c ∈ later, c.item.val.leaseOwner ≠ claim.item.val.leaseOwner

/-- `s` lets `claim` write under `key`: the item is in progress under a lease in the name
of the claim's owner, and is the claim's own acquisition unless that name acquired it
again. -/
structure WritableBy (claim : WorkClaim) (key : Key) (s : WorkRepository) : Prop where
  acquired : claim.acquired
  key_eq : key = claimKey claim
  held : ∃ item owner, s.items.get? key = some item ∧ item.val.state = .inProgress ∧
    item.val.leaseOwner = some owner ∧ claim.item.val.leaseOwner = some owner
  latest : ∀ calls item, storeMachine.run .empty calls = s → s.items.get? key = some item →
    NotReacquired key calls claim → item.val.attemptCount = claim.item.val.attemptCount

theorem acquisitions_snoc (key : Key) (calls : List StoreCall) (call : StoreCall) :
    acquisitions key (calls ++ [call]) = acquisitions key calls ++
      (acquisitionOf key
        (storeMachine.transition (storeMachine.run .empty calls) call)).toList := by
  unfold acquisitions
  rw [Machine.history_append, List.filterMap_append, Machine.history_cons, Machine.history_nil]
  cases h : acquisitionOf key (storeMachine.transition (storeMachine.run .empty calls) call) <;>
    simp [h]

theorem last_acquisition (key : Key) (calls : List StoreCall) :
    ∀ item, (storeMachine.run .empty calls).items.get? key = some item →
      item.val.state = .inProgress → ∃ c, (acquisitions key calls).getLast? = some c ∧
        c.item.val.leaseOwner = item.val.leaseOwner ∧
        c.item.val.attemptCount = item.val.attemptCount := by
  induction calls using List.reverseRecOn with
  | nil => intro item h; cases h
  | append_singleton calls call ih =>
    rw [acquisitions_snoc, Machine.run_append]
    simp only [Machine.run_cons, Machine.run_nil]
    have hmove := call_itemMove call (storeMachine.run .empty calls) key
    generalize (storeMachine.run .empty calls).items.get? key = before at hmove ih
    generalize (storeMachine call (storeMachine.run .empty calls)).2.items.get? key = after at hmove
    generalize acquisitionOf key _ = claim at hmove
    intro item hi hp
    cases hmove with
    | kept _ => simpa using ih item hi hp
    | created issued =>
      cases hi
      rw [issued.pending] at hp
      cases hp
    | acquired acquired value =>
      cases hi
      exact ⟨_, by simp, rfl, rfl⟩
    | @renewed current next expiry value =>
      cases hi
      rw [value] at hp
      simpa [value] using ih current rfl hp
    | released stopped value =>
      cases hi
      rw [value] at hp
      exact absurd hp stopped

/-- The item its owner's name holds is the claim's own acquisition, when that name did
not acquire it again. -/
theorem attempt_of_notReacquired {key : Key} {calls : List StoreCall} {claim : WorkClaim}
    {item : WorkItemRecord} (h : NotReacquired key calls claim)
    (hi : (storeMachine.run .empty calls).items.get? key = some item)
    (hp : item.val.state = .inProgress) (ho : item.val.leaseOwner = claim.item.val.leaseOwner) :
    item.val.attemptCount = claim.item.val.attemptCount := by
  obtain ⟨earlier, later, hacq, hlater⟩ := h
  obtain ⟨c, hc, hco, hca⟩ := last_acquisition key calls item hi hp
  rw [hacq, List.getLast?_append_of_ne_nil _ (List.cons_ne_nil _ _),
    List.getLast?_cons] at hc
  cases hl : later.getLast? with
  | none =>
    rw [hl] at hc
    cases hc
    exact hca.symm
  | some last =>
    rw [hl] at hc
    cases hc
    exact absurd (hco.trans ho) (hlater _ (List.mem_of_getLast? hl))

theorem writableBy_of_owned {claim : WorkClaim} {owner : String} {now : DateTime}
    {item : WorkItemRecord} {s : WorkRepository} (hacq : claim.acquired)
    (hclaim : claim.item.val.leaseOwner = some owner)
      (ho : s.Owned (claimKey claim) owner now item) :
    WritableBy claim (claimKey claim) s := by
  refine ⟨hacq, rfl, ⟨item, owner, ho.found, ho.inProgress, ho.owner_eq, hclaim⟩, ?_⟩
  rintro calls item' rfl hi hlatest
  rw [ho.found] at hi
  cases hi
  exact attempt_of_notReacquired hlatest ho.found ho.inProgress (ho.owner_eq.trans hclaim.symm)

section Writes

variable (env : Environment) (claim : WorkClaim)

/-- The part of `execute_claim` before its write: the clock is read, then the handler
runs, however long it takes and whatever else happens meanwhile. -/
def beforeWrite (handler : BulkWorkExecutor.Handler) :
    Action (String × DateTime × WorkItemExecutionResult) := do
  let owner ← claim.requireOwner
  let now ← ask env.clock
  let result ← BulkWorkExecutor.handledResult handler claim.item
  return (owner, now, result)

theorem checkpoint_writes (stage : CheckpointStage) (outcome : String) (result : Option Bytes)
    {w : World} {key : Key}
    (hne : ((BulkCoordinator.checkpoint env claim stage outcome result).after
      w).store.items.get? key ≠
      w.store.items.get? key) :
    WritableBy claim key w.store ∧ ∃ owner now item, env.clock w.moment = .ok now ∧
      w.store.Owned key owner now item := by
  rcases BulkCoordinator.checkpoint_effect env claim stage outcome result w with
    hsame | ⟨owner, now, ref, reply, ho, -, hnow, hout⟩
  · exact absurd (congrArg (fun s : WorkRepository => s.items.get? key) hsame) hne
  · obtain ⟨hacq, howner⟩ := WorkClaim.requireOwner_eq_ok.1 ho
    obtain ⟨rfl, item, hown⟩ := hout.changes hne
    exact ⟨writableBy_of_owned hacq howner hown, owner, now, item, hnow, hown⟩

theorem beforeWrite_returns (handler : BulkWorkExecutor.Handler) {w w₁ : World} {owner : String}
    {now : DateTime} {result : WorkItemExecutionResult}
    (h : (beforeWrite env claim handler).exec w = (.ok (owner, now, result), w₁)) :
    claim.acquired ∧ claim.item.val.leaseOwner = some owner ∧ env.clock w.moment = .ok now := by
  obtain ⟨o, w₂, ho, h⟩ := bind_returns h
  obtain ⟨n, w₃, hn, h⟩ := bind_returns h
  obtain ⟨r, w₄, -, h⟩ := bind_returns h
  cases h
  obtain ⟨hacq, howner⟩ := WorkClaim.requireOwner_eq_ok.1 (congrArg Prod.fst ho)
  rw [exec_ask] at hn
  cases congrArg Prod.snd ho
  exact ⟨hacq, howner, congrArg Prod.fst hn⟩

theorem terminalizeResult_writes {owner : String} {now : DateTime}
    {result : WorkItemExecutionResult} {w : World} {key : Key}
    (hne : ((BulkWorkExecutor.terminalizeResult env claim owner now result).after
      w).store.items.get? key ≠ w.store.items.get? key) :
    key = claimKey claim ∧ ∃ item, w.store.Owned (claimKey claim) owner now item := by
  unfold BulkWorkExecutor.terminalizeResult after at hne
  have hstore := congrArg World.store (putResult?_same env.sha256 result.val.result w)
  rw [exec_bind] at hne
  unfold after at hstore
  generalize (putResult? env.sha256 result.val.result).exec w = r at hne hstore
  obtain ⟨e | ref, w₁⟩ := r
  · exact absurd (congrArg (fun s : WorkRepository => s.items.get? key) hstore) hne
  simp only [exec_onStore] at hne hstore
  rw [hstore] at hne
  exact (terminalize_outcome ..).changes hne

theorem executeClaim_eq (handler : BulkWorkExecutor.Handler) :
    BulkWorkExecutor.executeClaim env claim handler =
      beforeWrite env claim handler >>= fun p =>
        BulkWorkExecutor.terminalizeResult env claim p.1 p.2.1 p.2.2 >>=
          BulkWorkExecutor.afterTerminal env claim p.2.2 := by
  unfold BulkWorkExecutor.executeClaim beforeWrite
  simp only [bind_assoc, pure_bind]

theorem executeClaim_writes (handler : BulkWorkExecutor.Handler) {w : World} {key : Key}
    (hne : ((BulkWorkExecutor.executeClaim env claim handler).after w).store.items.get? key ≠
      ((beforeWrite env claim handler).after w).store.items.get? key) :
    WritableBy claim key ((beforeWrite env claim handler).after w).store ∧
      ∃ owner now item, env.clock w.moment = .ok now ∧
        ((beforeWrite env claim handler).after w).store.Owned key owner now item := by
  unfold after at hne ⊢
  rw [executeClaim_eq, exec_bind] at hne
  rcases hb : (beforeWrite env claim handler).exec w with ⟨e | ⟨owner, now, result⟩, w₁⟩
  · rw [hb] at hne; exact absurd rfl hne
  obtain ⟨hacq, howner, hnow⟩ := beforeWrite_returns env claim handler hb
  rw [hb] at hne
  simp only at hne ⊢
  have hwrite : ((BulkWorkExecutor.terminalizeResult env claim owner now result).after
      w₁).store.items.get? key ≠ w₁.store.items.get? key := by
    unfold after
    intro hsame
    refine hne ?_
    rw [exec_bind, ← hsame]
    rcases (BulkWorkExecutor.terminalizeResult env claim owner now result).exec w₁ with
      ⟨e | terminal, w₂⟩
    · rfl
    · exact congrArg (·.get? key) (afterTerminal_same env claim result terminal w₂).items
  obtain ⟨rfl, item, hown⟩ := terminalizeResult_writes env claim hwrite
  exact ⟨writableBy_of_owned hacq howner hown, owner, now, item, hnow, hown⟩

end Writes

/-- A write presented with a claim, by `checkpoint` or by `execute_claim`, changes an item
only if that is the claim's own item, in progress under a lease in the name of the
claim's owner that is unexpired at the clock reading of the write, which `execute_claim`
takes before its handler runs; and the claim is then the item's latest acquisition, unless
the same owner name acquired the item again. -/
theorem stale_claim_fencing (env : Environment) (claim : WorkClaim) (w : World) (key : Key) :
    (∀ stage outcome result,
      ((BulkCoordinator.checkpoint env claim stage outcome result).after w).store.items.get? key ≠
        w.store.items.get? key →
      WritableBy claim key w.store ∧ ∃ owner now item, env.clock w.moment = .ok now ∧
        w.store.Owned key owner now item) ∧
    ∀ handler,
      ((BulkWorkExecutor.executeClaim env claim handler).after w).store.items.get? key ≠
        ((beforeWrite env claim handler).after w).store.items.get? key →
      WritableBy claim key ((beforeWrite env claim handler).after w).store ∧
        ∃ owner now item, env.clock w.moment = .ok now ∧
          ((beforeWrite env claim handler).after w).store.Owned key owner now item :=
  ⟨fun stage outcome result => checkpoint_writes env claim stage outcome result,
    fun handler => executeClaim_writes env claim handler⟩

namespace Sample

/-- An application whose clock stands still, whose adapter commits nothing and whose
sinks never fail; it digests the one payload of the samples. -/
def environment (now : Int) : Environment where
  sha256 _ := digest
  elapsedMs d := d / 1000
  jsonDumps _ := .ok (CodeText.ofString "[]")
  repr _ := .ok "'ok'"
  points := CodeText.ofString
  startedAt := time 0
  failItemIds := []
  clock _ := .ok (time now)
  identifier _ := .ok "outbox-1"
  brokerIdentifier _ := .ok "delivery-1"
  telemetry _ _ := .ok ()
  audit _ _ := .ok ()
  authorization _ _ _ := .ok ⟨none, none⟩
  executeShared _ _ _ := .ok ⟨⟨.rolledBack, none⟩, rfl⟩
  verifyEffect _ _ _ _ := .ok ⟨⟨.absent, none⟩, rfl⟩
  executeNonShared _ _ _ _ := .ok ⟨{ status := .rolledBack }, rfl⟩

def worldOf (s : WorkRepository) : World := { World.empty with store := s }

/-- The claim of the sample item by `owner` at `now` for 10. -/
def claimAt (owner : String) (now : Int) : StoreCall := .claim key owner (time now) 10

/-- `worker-resumed` acquires the item, lets its lease expire and acquires it again. -/
def reclaimed : List StoreCall :=
  [create, claimAt "worker-resumed" 0, claimAt "worker-resumed" 20]

theorem texts : blank "bulk-job" = false ∧ blank "item-1" = false ∧
    blank "bulk-job:item-1" = false := by decide +kernel

/-- The `attempt`-th claim of the sample item, by `worker-resumed`. -/
def claimOf (attempt : Nat) (expiry : Int) : WorkClaim :=
  ⟨.acquired, ⟨{
    jobId := "bulk-job"
    itemId := "item-1"
    idempotencyKey := "bulk-job:item-1"
    payloadReference := payloadReference
    configuration := configuration
    state := .inProgress
    attemptCount := attempt
    leaseOwner := some "worker-resumed"
    leaseExpiresAt := some (time expiry)
    revision := attempt },
    WorkItemRecord.postInit_eq_ok texts (by simp) (by simp)⟩, none⟩

/-- An application whose clock reads 5 and then 21. -/
def aging : Environment :=
  { environment 21 with clock := fun n => .ok (time (if n = 0 then 5 else 21)) }

/-- A handler that completes its item after 16 ticks, as its own reading of the clock tells. -/
def slowHandler : BulkWorkExecutor.Handler := fun _ => do
  let _ ← ask aging.clock
  return ⟨{ state := .succeeded }, rfl⟩

def acquiredWorld : World :=
  worldOf (storeMachine.run .empty [create, claimAt "worker-resumed" 0])

end Sample

/-- A write with a claim that was superseded under the same owner name goes through: the
clock reads 21, the first claim ended at 10 and the second one holds the item. A write after
a slow handler goes through as well, though the clock reads 21 and the lease ended at 10. -/
theorem superseded_claim_writes :
    (acquisitions Sample.key Sample.reclaimed = [Sample.claimOf 1 10, Sample.claimOf 2 30] ∧
    ((BulkCoordinator.checkpoint (Sample.environment 21) (Sample.claimOf 1 10) .accepted
        "accepted" none).after
      (Sample.worldOf (storeMachine.run .empty Sample.reclaimed))).store.items.get? Sample.key ≠
      (storeMachine.run .empty Sample.reclaimed).items.get? Sample.key) ∧
    ((BulkWorkExecutor.executeClaim Sample.aging (Sample.claimOf 1 10) Sample.slowHandler).after
      Sample.acquiredWorld).store.items.get? Sample.key ≠
      ((beforeWrite Sample.aging (Sample.claimOf 1 10) Sample.slowHandler).after
        Sample.acquiredWorld).store.items.get? Sample.key ∧
    Sample.aging.clock ((beforeWrite Sample.aging (Sample.claimOf 1 10) Sample.slowHandler).after
      Sample.acquiredWorld).moment = .ok (Sample.time 21) := by
  decide +kernel

/-- The second claim writes by a checkpoint and by an execution, and is the latest
acquisition. -/
theorem stale_claim_fencing_sample :
    WritableBy (Sample.claimOf 2 30) Sample.key
      (Sample.worldOf (storeMachine.run .empty Sample.reclaimed)).store ∧
    ∃ owner now item, Sample.aging.clock 0 = .ok now ∧
      ((beforeWrite Sample.aging (Sample.claimOf 1 10) Sample.slowHandler).after
        Sample.acquiredWorld).store.Owned Sample.key owner now item :=
  ⟨((stale_claim_fencing (Sample.environment 21) (Sample.claimOf 2 30)
    (Sample.worldOf (storeMachine.run .empty Sample.reclaimed)) Sample.key).1 .accepted "accepted"
    none (by decide +kernel)).1,
  ((stale_claim_fencing Sample.aging (Sample.claimOf 1 10) Sample.acquiredWorld Sample.key).2
    Sample.slowHandler (by decide +kernel)).2⟩

end AiRetrieval
