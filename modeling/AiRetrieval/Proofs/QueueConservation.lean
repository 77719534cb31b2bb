import AiRetrieval.Proofs.EconomicalSelection
import AiRetrieval.Proofs.TenantTurns

/-! The queue of a router loses nothing and duplicates nothing: what was enqueued is what was
dispatched and what still waits, and a pass dispatches the first operation that is admitted. -/

namespace AiRetrieval

open Program

def enqueued (t : SchedulerTransition) : Option QueuedOperation :=
  match t.input, t.reply with
  | .enqueue operation candidates policy, .enqueued (.ok ()) =>
    some ⟨t.before.nextSequence, operation, candidates, policy⟩
  | _, _ => none

namespace Scheduler

variable {router : Scheduler}

/-- The operations a pass tried before, each of which was refused. -/
inductive Refused (router : Scheduler) (now : DateTime) :
    List QueuedOperation → RoutingState → RoutingState → Prop
  | nil (s : RoutingState) : Refused router now [] s s
  | cons {item : QueuedOperation} {rest : List QueuedOperation} {s t u : RoutingState}
    {failure : AdmissionFailure} {eligibility : List CandidateEligibility}
    (first : (ModelRouter.admitOperation router.env item.operation item.candidates item.policy
      now).exec s = (.ok (.failed failure eligibility), t))
    (others : Refused router now rest t u) : Refused router now (item :: rest) s u

/-- How a pass over operations ends: all are refused; or one is admitted after those before it
were refused, and it alone leaves the queue; or the admission of one raises. -/
inductive PassEnds (router : Scheduler) (now : DateTime) (items : List QueuedOperation)
    (s : SchedulerState) : Except PyError (Option ModelAdmission) → SchedulerState → Prop
  | idle {routing : RoutingState} (refused : Refused router now items s.routing routing) :
    PassEnds router now items s (.ok none) { s with routing := routing }
  | dispatched {earlier later : List QueuedOperation} {item : QueuedOperation}
    {routing routing' : RoutingState} {candidate : ModelCandidate} {lease : CapacityLease}
    {eligibility : List CandidateEligibility} (split : items = earlier ++ item :: later)
    (refused : Refused router now earlier s.routing routing)
    (admitted : (ModelRouter.admitOperation router.env item.operation item.candidates item.policy
      now).exec routing = (.ok (.admitted candidate lease eligibility), routing')) :
    PassEnds router now items s (.ok (some (.admitted candidate lease eligibility)))
      { s with routing := routing', queue := s.queue.erase item, lastTenant := some item.tenant }
  | raised {earlier later : List QueuedOperation} {item : QueuedOperation}
    {routing routing' : RoutingState} {error : PyError} (split : items = earlier ++ item :: later)
    (refused : Refused router now earlier s.routing routing)
    (raises : (ModelRouter.admitOperation router.env item.operation item.candidates item.policy
      now).exec routing = (.error error, routing')) :
    PassEnds router now items s (.error error) { s with routing := routing' }

theorem PassEnds.after {now : DateTime} {item : QueuedOperation} {rest : List QueuedOperation}
    {s s' : SchedulerState} {routing : RoutingState} {failure : AdmissionFailure}
    {eligibility : List CandidateEligibility} {result : Except PyError (Option ModelAdmission)}
    (first : (ModelRouter.admitOperation router.env item.operation item.candidates item.policy
      now).exec s.routing = (.ok (.failed failure eligibility), routing))
    (h : PassEnds router now rest { s with routing := routing } result s') :
    PassEnds router now (item :: rest) s result s' := by
  cases h with
  | idle refused => exact .idle (.cons first refused)
  | dispatched split refused admitted =>
    rw [split, ← List.cons_append]
    exact .dispatched rfl (.cons first refused) admitted
  | raised split refused raises =>
    rw [split, ← List.cons_append]
    exact .raised rfl (.cons first refused) raises

theorem scheduleFrom_ends (now : DateTime) (items : List QueuedOperation) (s : SchedulerState) :
    PassEnds router now items s ((scheduleFrom router now items).exec s).1
      ((scheduleFrom router now items).exec s).2 := by
  induction items generalizing s with
  | nil => exact .idle (.nil _)
  | cons item rest ih =>
    rw [scheduleFrom, exec_bind]
    unfold routed
    rw [exec_zoom]
    cases hanswer : (ModelRouter.admitOperation router.env item.operation
      item.candidates item.policy
      now).exec s.routing with
    | mk result routing =>
      cases result with
      | error error => exact .raised (List.nil_append _).symm (.nil _) hanswer
      | ok decision =>
        cases decision with
        | admitted candidate lease eligibility =>
          exact .dispatched (List.nil_append _).symm (.nil _) hanswer
        | failed failure eligibility => exact (ih { s with routing := routing }).after hanswer

theorem scheduleNext_exec (now : DateTime) (s : SchedulerState) : (router.scheduleNext now).exec s =
    (router.scheduleFrom now (router.orderedQueue s)).exec s := by
  rw [scheduleNext, exec_bind, exec_get]

section Order

variable {s : SchedulerState}

theorem turns_filter (h : s.Ordered) (hturns : router.order = .tenantRoundRobin) (tenant : String) :
    (router.orderedQueue s).filter (·.tenant = tenant) = s.queue.filter (·.tenant = tenant) := by
  have hnodup : (tenantOrder s).Nodup := by
    rw [tenantOrder_eq]
    exact RoundRobin.nodup_turns _ _
  have hkeyed : ∀ k ∈ tenantOrder s, ∀ item ∈ (queued s).filter (fun item => item.tenant = k),
      item.tenant = k := by
    intro k _ item hitem
    exact of_decide_eq_true (List.mem_filter.1 hitem).2
  have hfuel : (perTenant s).flatten.length ≤ (queued s).length := by
    rw [(perTenant_flatten_perm s).length_eq, (queued_perm s).length_eq]
  unfold orderedQueue
  rw [hturns]
  by_cases htenant : tenant ∈ tenantOrder s
  · refine (inRounds_filter QueuedOperation.tenant hnodup hkeyed htenant hfuel).trans ?_
    rw [queued_eq h]
  · have habsent : ∀ item ∈ s.queue, ¬item.tenant = tenant := by
      rintro item hitem rfl
      refine htenant ?_
      rw [tenantOrder_eq, RoundRobin.mem_turns]
      exact List.mem_map_of_mem ((queued_perm s).mem_iff.2 hitem)
    have hperm := (inRounds_perm hfuel).trans (perTenant_flatten_perm s)
    rw [List.filter_eq_nil_iff.2, List.filter_eq_nil_iff.2]
    · exact fun item hitem => by simpa using habsent item hitem
    · exact fun item hitem => by simpa using habsent item (hperm.mem_iff.1 hitem)

theorem interactive_filter (h : s.Ordered) (horder : router.order = .interactiveFirst)
    (path : ExecutionPath) : (router.orderedQueue s).filter (·.operation.val.path = path) =
      s.queue.filter (·.operation.val.path = path) := by
  have hperm := @orderedQueue_perm router s
  have hpath : ((s.queue.filter (·.operation.val.path = path)).Pairwise interactiveBefore) := by
    refine List.Pairwise.imp_of_mem ?_ (h.increasing.sublist List.filter_sublist)
    intro a b ha hb hlt
    have ha := of_decide_eq_true (List.mem_filter.1 ha).2
    have hb := of_decide_eq_true (List.mem_filter.1 hb).2
    exact Or.inr ⟨by rw [ha, hb], hlt.le⟩
  have hsub : (s.queue.filter (·.operation.val.path = path)).Sublist (router.orderedQueue s) := by
    unfold orderedQueue
    rw [horder, queued_eq h]
    exact List.sublist_insertionSort hpath List.filter_sublist
  have hkept := hsub.filter (·.operation.val.path = path)
  simp only [List.filter_filter, Bool.and_self] at hkept
  exact (hkept.eq_of_length ((hperm.filter _).length_eq).symm).symm

end Order

theorem enqueue_exec (operation : ModelOperation) (candidates : List ModelCandidate)
    (policy : Option RoutingPolicy) (s : SchedulerState) :
    (router.enqueue operation candidates policy).exec s =
      if s.queue.any fun item => item.operation.val.operationId = operation.val.operationId then
        (.error (.valueError
          ("operation " ++ router.repr operation.val.operationId ++ " is already queued")), s)
      else (.ok (), { s with
        queue := s.queue ++ [⟨s.nextSequence, operation, candidates, policy⟩]
        nextSequence := s.nextSequence + 1 }) := by
  rw [enqueue, exec_bind, exec_get]
  dsimp only
  split
  · rfl
  · rfl

end Scheduler

/-- The order a pass tries the queue in: every operation once, those of a tenant as they were
enqueued or, where the interactive ones come first, those of a path; the rounds over the tenants
end on their own. -/
structure TriedInOrder (router : Scheduler) (s : SchedulerState) : Prop where
  enqueuedInOrder : s.queue.Pairwise fun a b => a.sequence < b.sequence
  perm : (router.orderedQueue s).Perm s.queue
  tenants : router.order ≠ .interactiveFirst → ∀ tenant,
    (router.orderedQueue s).filter (·.tenant = tenant) = s.queue.filter (·.tenant = tenant)
  paths : router.order = .interactiveFirst → ∀ path,
    (router.orderedQueue s).filter (·.operation.val.path = path) =
      s.queue.filter (·.operation.val.path = path)
  finished : ∀ fuel, (Scheduler.queued s).length ≤ fuel →
    inRounds fuel (Scheduler.perTenant s) =
      inRounds (Scheduler.queued s).length (Scheduler.perTenant s)

section Runs

variable {router : Scheduler} {s : SchedulerState}

theorem triedInOrder (h : s.Ordered) : TriedInOrder router s := by
  refine ⟨h.increasing, Scheduler.orderedQueue_perm s, fun horder tenant => ?_,
    Scheduler.interactive_filter h, fun fuel hfuel => inRounds_eq ?_ hfuel⟩
  · cases hcases : router.order with
    | fifo =>
      rw [Scheduler.orderedQueue, hcases]
      exact congrArg _ (Scheduler.queued_eq h)
    | interactiveFirst => exact absurd hcases horder
    | tenantRoundRobin => exact Scheduler.turns_filter h hcases tenant
  · rw [(Scheduler.perTenant_flatten_perm s).length_eq, (Scheduler.queued_perm s).length_eq]

theorem queue_balance (h : s.Ordered) (call : SchedulerCall) :
    (s.queue ++ (enqueued ((schedulerMachine router).transition s call)).toList).Perm
      ((schedulerMachine router call s).2.queue ++
        (dispatched ((schedulerMachine router).transition s call)).toList) := by
  cases call with
  | enqueue operation candidates policy =>
    have hexec := @Scheduler.enqueue_exec router operation candidates policy s
    split at hexec
    · simp only [enqueued, dispatched, Machine.transition, schedulerMachine, hexec]
      exact List.Perm.refl _
    · simp only [enqueued, dispatched, Machine.transition, schedulerMachine, hexec]
      simp
  | scheduleNext now =>
    have hends := @Scheduler.scheduleFrom_ends router now (router.orderedQueue s) s
    have hexec := @Scheduler.scheduleNext_exec router now s
    generalize (router.scheduleFrom now (router.orderedQueue s)).exec s = answer at hends hexec
    obtain ⟨result, s'⟩ := answer
    cases hends with
    | idle refused =>
      simp only [enqueued, dispatched, Machine.transition, schedulerMachine, hexec]
      exact List.Perm.refl _
    | raised split refused raises =>
      simp only [enqueued, dispatched, Machine.transition, schedulerMachine, hexec]
      exact List.Perm.refl _
    | @dispatched earlier later item routing routing' candidate lease eligibility split refused
        admitted =>
      have hitem : item ∈ s.queue := by
        rw [← (@Scheduler.orderedQueue_perm router s).mem_iff, split]
        simp
      simp only [enqueued, dispatched, Machine.transition, schedulerMachine, hexec]
      rw [Scheduler.admitted_lease admitted, find_of_distinct h.distinct hitem]
      simp only [Option.toList_none, Option.toList_some, List.append_nil]
      exact (List.perm_cons_erase hitem).trans (List.perm_append_singleton _ _).symm
  | admission operation candidates policy now => exact List.Perm.refl _
  | complete lease => exact List.Perm.refl _

/-- Sequence numbers are given out once, in order. -/
theorem sequence_step (call : SchedulerCall) :
    (∀ item, enqueued ((schedulerMachine router).transition s call) = some item →
      item.sequence = s.nextSequence ∧
        (schedulerMachine router call s).2.nextSequence = s.nextSequence + 1) ∧
    s.nextSequence ≤ (schedulerMachine router call s).2.nextSequence := by
  have hmove := queue_move router call s
  cases call with
  | enqueue operation candidates policy =>
    have hexec := @Scheduler.enqueue_exec router operation candidates policy s
    split at hexec
    · simp only [enqueued, Machine.transition, schedulerMachine, hexec]
      exact ⟨fun item h => (by cases h), le_refl _⟩
    · simp only [enqueued, Machine.transition, schedulerMachine, hexec]
      refine ⟨fun item h => ?_, Nat.le_succ _⟩
      cases h
      exact ⟨rfl, trivial⟩
  | scheduleNext now =>
    refine ⟨fun item h => (by cases h), ?_⟩
    generalize schedulerMachine router (.scheduleNext now) s = answer at hmove ⊢
    obtain ⟨reply, s'⟩ := answer
    cases hmove with
    | kept _ _ _ same => exact same.nextSequence.ge
    | dispatched _ _ _ _ _ _ _ _ _ _ next => exact next.ge
  | admission operation candidates policy now => exact ⟨fun item h => (by cases h), le_refl _⟩
  | complete lease => exact ⟨fun item h => (by cases h), le_refl _⟩

/-- The operations enqueued in a run are numbered in order. -/
theorem enqueued_increasing (s : SchedulerState) (calls : List SchedulerCall) :
    (((schedulerMachine router).history s calls).filterMap enqueued).Pairwise
      (fun a b => a.sequence < b.sequence) ∧
    ∀ item ∈ ((schedulerMachine router).history s calls).filterMap enqueued,
      s.nextSequence ≤ item.sequence := by
  induction calls generalizing s with
  | nil => exact ⟨List.Pairwise.nil, fun _ h => (by cases h)⟩
  | cons call rest ih =>
    obtain ⟨hincreasing, hlarger⟩ := ih (schedulerMachine router call s).2
    obtain ⟨hnew, hmono⟩ := @sequence_step router s call
    rw [Machine.history_cons, List.filterMap_cons]
    cases henqueued : enqueued ((schedulerMachine router).transition s call) with
    | none => exact ⟨hincreasing, fun item hitem => hmono.trans (hlarger item hitem)⟩
    | some first =>
      obtain ⟨hfirst, hnext⟩ := hnew first henqueued
      rw [hnext] at hlarger
      refine ⟨List.pairwise_cons.2 ⟨fun item hitem => ?_, hincreasing⟩, fun item hitem => ?_⟩
      · have hle := hlarger item hitem
        omega
      · rcases List.mem_cons.1 hitem with rfl | hitem
        · exact hfirst.ge
        · have hle := hlarger item hitem
          omega

/-- In every run of a router the operations enqueued are those dispatched and those that wait,
none of them twice; the queue is tried in order, and a pass dispatches the first operation that
is admitted, and takes no other out of the queue. -/
theorem queue_conserved (router : Scheduler) (limits : Dict CapacityScope CapacityLimit)
    (calls : List SchedulerCall) :
    (((schedulerMachine router).history (.of limits) calls).filterMap enqueued).Perm
      (((schedulerMachine router).history (.of limits) calls).filterMap dispatched ++
        ((schedulerMachine router).run (.of limits) calls).queue) ∧
    (((schedulerMachine router).history (.of limits) calls).filterMap dispatched ++
      ((schedulerMachine router).run (.of limits) calls).queue).Nodup ∧
    TriedInOrder router ((schedulerMachine router).run (.of limits) calls) ∧
    ∀ now, Scheduler.PassEnds router now
      (router.orderedQueue ((schedulerMachine router).run (.of limits) calls))
      ((schedulerMachine router).run (.of limits) calls)
      ((router.scheduleNext now).exec ((schedulerMachine router).run (.of limits) calls)).1
      ((router.scheduleNext now).exec ((schedulerMachine router).run (.of limits) calls)).2 := by
  have hI : ∀ call s, SchedulerState.Ordered s → (schedulerMachine router call s).2.Ordered :=
    fun call s h => h.step router call
  have hstart := SchedulerState.of_ordered limits
  have hbalance := Machine.run_perm (m := schedulerMachine router) SchedulerState.queue
    (fun t => (enqueued t).toList) (fun t => (dispatched t).toList) (.of limits) calls (by
      intro t ht
      have hordered := Machine.history_invariant hI hstart ht
      obtain ⟨s, call, rfl⟩ := Machine.history_transition ht
      exact queue_balance hordered call)
  rw [← List.filterMap_eq_flatMap_toList, ← List.filterMap_eq_flatMap_toList] at hbalance
  have hconserved := hbalance.trans List.perm_append_comm
  refine ⟨hconserved, ?_, triedInOrder (Machine.run_invariant hI hstart calls), fun now => ?_⟩
  · rw [← hconserved.nodup_iff]
    refine ((enqueued_increasing (.of limits) calls).1).imp fun hlt hsame => ?_
    rw [hsame] at hlt
    exact absurd hlt (lt_irrefl _)
  · rw [Scheduler.scheduleNext_exec]
    exact Scheduler.scheduleFrom_ends now _ _

end Runs

namespace Sample

def queueRouter : Scheduler := ⟨routing, fun text => text, .fifo⟩

def operationBehind : ModelOperation := operationFor "op-9" "request-i" (by decide +kernel)

/-- An operation whose admission raises, and behind it one that can be admitted. -/
def endlessFirst : List SchedulerCall :=
  [.enqueue firstOperation [endless] (some routingPolicy),
    .enqueue operationBehind [candidate] (some routingPolicy)]

end Sample

/-- An operation that can be admitted waits behind one whose admission raises: the pass raises
and dispatches nothing. -/
theorem admissible_held_back : ¬∀ (router : Scheduler)
    (limits : Dict CapacityScope CapacityLimit) (calls : List SchedulerCall) (now : DateTime),
    (∃ item ∈ router.orderedQueue ((schedulerMachine router).run (.of limits) calls),
      ∃ candidate lease eligibility routing, (ModelRouter.admitOperation router.env item.operation
        item.candidates item.policy now).exec
          ((schedulerMachine router).run (.of limits) calls).routing
          = (.ok (.admitted candidate lease eligibility), routing)) →
    ∃ admission, ((router.scheduleNext now).exec
      ((schedulerMachine router).run (.of limits) calls)).1 = .ok (some admission) := by
  intro h
  have hraises : ((Sample.queueRouter.scheduleNext (Sample.time 0)).exec ((schedulerMachine
      Sample.queueRouter).run (.of .empty) Sample.endlessFirst)).1.toBool = false := by
    decide +kernel
  obtain ⟨admission, hadmission⟩ := h Sample.queueRouter .empty Sample.endlessFirst (Sample.time 0)
    ⟨⟨1, Sample.operationBehind, [Sample.candidate], some Sample.routingPolicy⟩,
      by decide +kernel, Sample.candidate, ⟨"op-9", []⟩, [⟨Sample.candidate, []⟩], _, rfl⟩
  rw [hadmission] at hraises
  cases hraises

end AiRetrieval
