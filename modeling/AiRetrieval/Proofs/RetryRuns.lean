import AiRetrieval.Proofs.CapacityLimits
import AiRetrieval.Spec.Retry

/-! Runs of failing attempts: what they ask for is the plan the policy lays down from the
first model on, cut off somewhere, and each attempt asked for can end before the deadline. -/

namespace AiRetrieval

open Program

namespace RetryPolicy

variable (policy : RetryPolicy) (first : String)

/-- The model of the attempt after `n` failures of a call that began with `first`. -/
def modelAt : Nat → String
  | 0 => first
  | n + 1 => policy.val.fallbackModelIds[n]?.getD (modelAt n)

/-- The transition after failure `n + 1`, where the delay is `delayMs`. -/
def planned (n : Nat) (delayMs : Int) : RetryTransition :=
  ⟨if policy.modelAt first (n + 1) = policy.modelAt first n then .retry else .fallback,
    some (policy.modelAt first (n + 1)), some delayMs, none⟩

/-- The attempts the policy lays down: one for each delay, below the number of attempts. -/
def plan : List RetryTransition :=
  (policy.val.delayScheduleMs.take (policy.val.maxAttempts - 1).toNat).mapIdx fun n delayMs =>
    policy.planned first n delayMs

theorem plan_length : (policy.plan first).length =
    min (policy.val.maxAttempts - 1).toNat policy.val.delayScheduleMs.length := by
  simp [plan]

theorem plan_getElem? {n : Nat} {delayMs : Int} (hn : (n : Int) + 1 < policy.val.maxAttempts)
    (h : policy.val.delayScheduleMs[n]? = some delayMs) :
    (policy.plan first)[n]? = some (policy.planned first n delayMs) := by
  have hlt : n < (policy.val.maxAttempts - 1).toNat := by omega
  rw [plan, List.getElem?_mapIdx, List.getElem?_take_of_lt hlt, h]
  rfl

theorem modelAt_text (hfirst : blank first = false) (n : Nat) :
    blank (policy.modelAt first n) = false := by
  induction n with
  | zero => exact hfirst
  | succ n ih =>
    rw [modelAt]
    rcases hfallback : policy.val.fallbackModelIds[n]? with _ | modelId
    · exact ih
    · have h := policy.passed
      simp only [postInit, except_seq_eq_ok, require_eq_ok] at h
      exact h.2.2 modelId (List.mem_of_getElem? hfallback)

end RetryPolicy

section Runs

variable (operation : ModelOperation) (policy : RetryPolicy)

/-- What had to hold for the attempt: its model is a candidate, the gates are open and it can
end before the deadline. -/
structure Permitted (failed : FailedAttempt) (t : RetryTransition) : Prop where
  retryable : failed.failureClass ∈ policy.val.retryableFailureClasses.items
  gates : failed.gates = ⟨true, true, true⟩
  timely : ∃ modelId candidate delayMs, t.modelId = some modelId ∧ t.delayMs = some delayMs ∧
    failed.candidates.get? modelId = some candidate ∧
    ∀ deadline, operation.val.deadline = some deadline →
      failed.now.instant + (delayMs + candidate.val.predictedLatencyMs +
        operation.val.completionReserveMs) * 1000 ≤ deadline.instant

theorem ofMilliseconds_eq_ok {milliseconds : Nat} {delta : TimeDelta}
    (h : TimeDelta.ofMilliseconds milliseconds = .ok delta) : delta = milliseconds * 1000 := by
  unfold TimeDelta.ofMilliseconds at h
  simp only at h
  split at h
  · cases h
    exact Int.natCast_mul milliseconds 1000
  · split at h <;> cases h

theorem late_false {candidate : ModelCandidate} {delayMs : Int} {now deadline : DateTime}
    (h : RetryController.late operation candidate delayMs now = .ok false) (hdelay : 0 ≤ delayMs)
    (hdeadline : operation.val.deadline = some deadline) :
    now.instant + (delayMs + candidate.val.predictedLatencyMs +
      operation.val.completionReserveMs) * 1000 ≤ deadline.instant := by
  unfold RetryController.late at h
  obtain ⟨delta, hdelta, h⟩ := except_bind_eq_ok.1 h
  obtain ⟨completion, hcompletion, h⟩ := except_bind_eq_ok.1 h
  rw [hdeadline] at h
  obtain ⟨-, hbefore⟩ := DateTime.before_eq_ok.1 h
  have hinstant := (DateTime.plus_eq_ok hcompletion).2
  have hvalue := ofMilliseconds_eq_ok hdelta
  have hlate : ¬deadline.instant < completion.instant := of_decide_eq_false hbefore.symm
  rw [hinstant, hvalue] at hlate
  have hnat : (delayMs.toNat : Int) = delayMs := Int.toNat_of_nonneg hdelay
  push_cast [hnat] at hlate
  omega

/-- Everything `next_transition` can answer: it ends the call, or it asks for the attempt the
policy lays down, which is permitted. -/
theorem nextTransition_cases {state : AttemptState} {failed : FailedAttempt} {t : RetryTransition}
    (h : RetryController.nextTransition operation state failed.failureClass policy
      failed.candidates failed.gates failed.now = .ok t) :
    t.invokesModel = false ∨
      ∃ delayMs modelId, state.val.attemptsCompleted < policy.val.maxAttempts ∧
        policy.val.delayScheduleMs[(state.val.attemptsCompleted - 1).toNat]? = some delayMs ∧
        modelId = policy.val.fallbackModelIds[(state.val.attemptsCompleted - 1).toNat]?.getD
          state.val.currentModelId ∧
        t = ⟨if modelId = state.val.currentModelId then .retry else .fallback, some modelId,
          some delayMs, none⟩ ∧ Permitted operation policy failed t := by
  unfold RetryController.nextTransition at h
  simp only at h
  by_cases hclass : failed.failureClass ∉ policy.val.retryableFailureClasses.items
  · rw [if_pos hclass] at h
    cases h
    exact Or.inl rfl
  rw [if_neg hclass] at h
  by_cases hattempts : policy.val.maxAttempts ≤ state.val.attemptsCompleted
  · rw [if_pos hattempts] at h
    cases h
    exact Or.inl rfl
  rw [if_neg hattempts] at h
  rcases hdelay : policy.val.delayScheduleMs[(state.val.attemptsCompleted - 1).toNat]? with
    _ | delayMs
  · rw [hdelay] at h
    cases h
    exact Or.inl rfl
  rw [hdelay] at h
  simp only at h
  generalize hmodel : policy.val.fallbackModelIds[(state.val.attemptsCompleted - 1).toNat]?.getD
    state.val.currentModelId = modelId at h
  rcases hcandidate : failed.candidates.get? modelId with _ | candidate
  · rw [hcandidate] at h
    cases h
    exact Or.inl rfl
  rw [hcandidate] at h
  simp only at h
  by_cases heligible : failed.gates.modelEligible = true
  swap
  · rw [if_pos heligible] at h
    cases h
    exact Or.inl rfl
  rw [if_neg (not_not.2 heligible)] at h
  by_cases hbudget : failed.gates.budgetAvailable = true
  swap
  · rw [if_pos hbudget] at h
    cases h
    exact Or.inl rfl
  rw [if_neg (not_not.2 hbudget)] at h
  by_cases hcapacity : failed.gates.capacityAvailable = true
  swap
  · rw [if_pos hcapacity] at h
    cases h
    exact Or.inl rfl
  rw [if_neg (not_not.2 hcapacity)] at h
  obtain ⟨late, hlate, h⟩ := except_bind_eq_ok.1 h
  cases late with
  | true =>
    cases h
    exact Or.inl rfl
  | false =>
    cases h
    refine Or.inr ⟨delayMs, modelId, not_le.1 hattempts, rfl, rfl, rfl,
      not_not.1 hclass, ?_, modelId, candidate, delayMs, rfl, rfl, hcandidate, ?_⟩
    · rcases hgates : failed.gates with ⟨budget, capacity, eligible⟩
      rw [hgates] at heligible hbudget hcapacity
      rw [show budget = true from hbudget, show capacity = true from hcapacity,
        show eligible = true from heligible]
    · intro deadline hdeadline
      have hnonneg := policy.passed
      simp only [RetryPolicy.postInit, except_seq_eq_ok, require_eq_ok] at hnonneg
      exact late_false operation hlate (hnonneg.2.1 _ (List.mem_of_getElem? hdelay)) hdeadline

def asked (t : Transition FailedAttempt (Except PyError (Option RetryTransition))
    (Option AttemptState)) : Option RetryTransition :=
  match t.reply with
  | .ok (some transition) => if transition.invokesModel then some transition else none
  | _ => none

theorem asked_ended (failures : List FailedAttempt) :
    ((retryMachine operation policy).history none failures).filterMap asked = [] := by
  induction failures with
  | nil => rfl
  | cons failed rest ih =>
    rw [Machine.history_cons, List.filterMap_cons]
    exact ih

theorem followed_planned {first : String} (hfirst : blank first = false) {n : Nat}
    {state : AttemptState} (hstate : state.val.attemptsCompleted = n + 1) (delayMs : Int) :
    ∃ next : AttemptState, (policy.planned first n delayMs).followed state = some next ∧
      next.val = ⟨policy.modelAt first (n + 1), (n + 1 : Nat) + 1⟩ := by
  have hvalid : AttemptState.postInit ⟨policy.modelAt first (n + 1),
      state.val.attemptsCompleted + 1⟩ = .ok () := by
    refine require_eq_ok.2 ⟨policy.modelAt_text first hfirst (n + 1), ?_⟩
    simp only [hstate]
    omega
  have hinvokes : (policy.planned first n delayMs).invokesModel = true := by
    unfold RetryPolicy.planned RetryTransition.invokesModel
    split <;> rfl
  refine ⟨⟨_, hvalid⟩, ?_, ?_⟩
  · rw [RetryTransition.followed, if_pos hinvokes]
    exact congrArg Except.toOption (Checked.make_of_passed hvalid)
  · simp only [hstate]
    push_cast
    rfl

theorem asked_prefix {first : String} (hfirst : blank first = false)
    (failures : List FailedAttempt) (n : Nat) (state : AttemptState)
    (hstate : state.val = ⟨policy.modelAt first n, n + 1⟩) :
    ((retryMachine operation policy).history (some state) failures).filterMap asked <+:
      (policy.plan first).drop n := by
  induction failures generalizing n state with
  | nil => exact List.nil_prefix
  | cons failed rest ih =>
    rw [Machine.history_cons, List.filterMap_cons]
    rcases hnext : RetryController.nextTransition operation state failed.failureClass policy
      failed.candidates failed.gates failed.now with e | t
    · have hafter : retryMachine operation policy failed (some state) = (.error e, none) := by
        simp only [retryMachine, hnext]
      rw [hafter, asked_ended]
      simp [asked, Machine.transition, hafter]
    have hafter : retryMachine operation policy failed (some state) =
        (.ok (some t), t.followed state) := by
      simp only [retryMachine, hnext]
    have hasked : asked ((retryMachine operation policy).transition (some state) failed) =
        if t.invokesModel then some t else none := by
      simp only [asked, Machine.transition, hafter]
    rw [hasked, hafter]
    rcases nextTransition_cases operation policy hnext with hends | ⟨delayMs, modelId, hlt, hdelay,
      hmodel, ht, -⟩
    · have hnone : t.followed state = none := by simp [RetryTransition.followed, hends]
      rw [hnone, asked_ended, if_neg (by simp [hends])]
      exact List.nil_prefix
    have hattempts : state.val.attemptsCompleted = n + 1 := by rw [hstate]
    have hindex : (state.val.attemptsCompleted - 1).toNat = n := by omega
    rw [hindex] at hdelay hmodel
    have hcurrent : state.val.currentModelId = policy.modelAt first n := by rw [hstate]
    have hplanned : t = policy.planned first n delayMs := by
      rw [ht, RetryPolicy.planned, RetryPolicy.modelAt, ← hcurrent, ← hmodel]
    obtain ⟨next, hfollowed, hvalue⟩ := followed_planned policy hfirst hattempts delayMs
    have hinvokes : t.invokesModel = true := by
      rw [ht]
      simp only [RetryTransition.invokesModel]
      split <;> rfl
    have hget := policy.plan_getElem? first (by omega) hdelay
    rw [if_pos hinvokes, hplanned, hfollowed, List.drop_eq_getElem?_toList_append, hget]
    exact (List.prefix_cons_inj _).2 (ih (n + 1) next hvalue)

/-- Over any row of failures of a call that began with `first`, the attempts asked for are the
first of those the policy lays down, so fewer than its number of attempts and no more than its
delays; and each of them was permitted where it was asked for. -/
theorem retry_run_follows_plan (first : AttemptState) (hfirst : first.val.attemptsCompleted = 1)
    (failures : List FailedAttempt) :
    ((retryMachine operation policy).history (some first) failures).filterMap asked <+:
        policy.plan first.val.currentModelId ∧
      (policy.plan first.val.currentModelId).length =
        min (policy.val.maxAttempts - 1).toNat policy.val.delayScheduleMs.length ∧
      ∀ t ∈ (retryMachine operation policy).history (some first) failures, ∀ transition,
        asked t = some transition → Permitted operation policy t.input transition := by
  refine ⟨?_, policy.plan_length _, fun t ht transition hasked => ?_⟩
  · have htext : blank first.val.currentModelId = false := by
      have h := first.passed
      simp only [AttemptState.postInit, require_eq_ok] at h
      exact h.1
    have hstate : first.val =
      ⟨policy.modelAt first.val.currentModelId 0, ((0 : Nat) : Int) + 1⟩ := by
      rw [RetryPolicy.modelAt, Nat.cast_zero, zero_add, ← hfirst]
    exact asked_prefix operation policy htext failures 0 first hstate
  · obtain ⟨state?, failed, rfl⟩ := Machine.history_transition ht
    cases state? with
    | none => cases hasked
    | some state =>
      rcases hnext : RetryController.nextTransition operation state failed.failureClass policy
        failed.candidates failed.gates failed.now with e | answered
      · simp [asked, Machine.transition, retryMachine, hnext] at hasked
      · simp only [asked, Machine.transition, retryMachine, hnext] at hasked ⊢
        by_cases hinvokes : answered.invokesModel = true
        · rw [if_pos hinvokes, Option.some.injEq] at hasked
          subst hasked
          rcases nextTransition_cases operation policy hnext with hends | ⟨_, _, -, -, -, -, hok⟩
          · rw [hends] at hinvokes
            cases hinvokes
          · exact hok
        · rw [if_neg hinvokes] at hasked
          cases hasked

end Runs

namespace Sample

/-- Three attempts with the sample candidate as the fallback of the second. -/
def retryPolicy : RetryPolicy := ⟨{
  retryableFailureClasses := .singleton "timeout"
  maxAttempts := 3
  delayScheduleMs := [100, 200, 400]
  fallbackModelIds := ["model"] }, by decide +kernel⟩

def firstAttempt : AttemptState := ⟨⟨"primary", 1⟩, by decide +kernel⟩

def timedOut : FailedAttempt where
  failureClass := "timeout"
  candidates := Dict.empty.insert "model" candidate
  gates := ⟨true, true, true⟩
  now := time 0

end Sample

/-- Three timeouts: the fallback after the first, a retry of it after the second, no more. -/
theorem retry_run_follows_plan_sample :
    ((retryMachine Sample.firstOperation Sample.retryPolicy).history (some Sample.firstAttempt)
        [Sample.timedOut, Sample.timedOut, Sample.timedOut]).filterMap asked =
      [⟨.fallback, some "model", some 100, none⟩, ⟨.retry, some "model", some 200, none⟩] ∧
    ((retryMachine Sample.firstOperation Sample.retryPolicy).history (some Sample.firstAttempt)
        [Sample.timedOut, Sample.timedOut, Sample.timedOut]).filterMap asked <+:
      Sample.retryPolicy.plan "primary" :=
  ⟨by decide +kernel, (retry_run_follows_plan Sample.firstOperation Sample.retryPolicy
    Sample.firstAttempt rfl [Sample.timedOut, Sample.timedOut, Sample.timedOut]).1⟩

end AiRetrieval
