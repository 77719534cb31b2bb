import AiRetrieval.Library.Grouping
import AiRetrieval.Library.RoundRobin
import AiRetrieval.Spec.Scheduling
import AiRetrieval.Sanity.PlanOutcomes

/-! What the calls of a router do to its queue, and whose turn it is in the order they try. -/

namespace AiRetrieval

open Program

section Rounds

variable {α : Type}

/-- One pass takes the heads and leaves the tails. -/
theorem heads_tails_perm (groups : List (List α)) :
    (groups.filterMap List.head? ++ (groups.map List.tail).flatten).Perm groups.flatten := by
  induction groups with
  | nil => exact List.Perm.refl _
  | cons group rest ih =>
    cases group with
    | nil => simpa [List.filterMap_cons] using ih
    | cons a tail =>
      have hcomm : (rest.filterMap List.head? ++ (tail ++ (rest.map List.tail).flatten)).Perm
          (tail ++ (rest.filterMap List.head? ++ (rest.map List.tail).flatten)) := by
        rw [← List.append_assoc, ← List.append_assoc]
        exact List.perm_append_comm.append_right _
      simpa [List.filterMap_cons] using (hcomm.trans (ih.append_left tail)).cons a

theorem heads_pos {groups : List (List α)} (h : groups.any (!·.isEmpty) = true) :
    0 < (groups.filterMap List.head?).length := by
  obtain ⟨group, hgroup, hnonempty⟩ := List.any_eq_true.1 h
  cases group with
  | nil => cases hnonempty
  | cons a tail =>
    exact List.length_pos_of_mem (List.mem_filterMap.2 ⟨a :: tail, hgroup, rfl⟩)

/-- The rounds go on until every group is empty. -/
theorem inRounds_perm {fuel : Nat} {groups : List (List α)}
    (hfuel : groups.flatten.length ≤ fuel) : (inRounds fuel groups).Perm groups.flatten := by
  induction fuel generalizing groups with
  | zero =>
    have hempty : groups.flatten = [] := List.eq_nil_of_length_eq_zero (by omega)
    rw [hempty]
    exact List.Perm.refl _
  | succ fuel ih =>
    have hperm := heads_tails_perm groups
    rw [inRounds]
    split
    · next hany =>
      have hpos := heads_pos hany
      have hlength := hperm.length_eq
      rw [List.length_append] at hlength
      exact ((ih (by omega)).append_left _).trans hperm
    · next hnone =>
      have hempty : groups.flatten = [] := by
        rw [List.flatten_eq_nil_iff]
        intro group hgroup
        by_contra hne
        exact hnone (List.any_eq_true.2 ⟨group, hgroup, by simpa using hne⟩)
      rw [hempty]

theorem inRounds_succ (fuel : Nat) (groups : List (List α)) : inRounds (fuel + 1) groups =
    if groups.any (!·.isEmpty) then
      groups.filterMap List.head? ++ inRounds fuel (groups.map List.tail)
    else [] := rfl

/-- More passes than there are elements change nothing: the rounds have ended. -/
theorem inRounds_stable {fuel : Nat} {groups : List (List α)}
    (hfuel : groups.flatten.length ≤ fuel) : inRounds (fuel + 1) groups = inRounds fuel groups := by
  induction fuel generalizing groups with
  | zero =>
    have hnone : ¬groups.any (!·.isEmpty) = true := by
      intro hany
      have hpos := heads_pos hany
      have hlength := (heads_tails_perm groups).length_eq
      rw [List.length_append] at hlength
      omega
    rw [inRounds_succ, if_neg hnone]
    rfl
  | succ fuel ih =>
    rw [inRounds_succ (fuel + 1) groups, inRounds_succ fuel groups]
    split
    · next hany =>
      have hpos := heads_pos hany
      have hlength := (heads_tails_perm groups).length_eq
      rw [List.length_append] at hlength
      rw [ih (by omega)]
    · rfl

theorem inRounds_eq {fuel enough : Nat} {groups : List (List α)}
    (hfuel : groups.flatten.length ≤ fuel) (hle : fuel ≤ enough) :
    inRounds enough groups = inRounds fuel groups := by
  induction enough, hle using Nat.le_induction with
  | base => rfl
  | succ enough hle ih => rw [inRounds_stable (hfuel.trans hle), ih]

section Keyed

variable {κ : Type} [DecidableEq κ] (f : α → κ) {keys : List κ} {group : κ → List α}

theorem head_filter {k k' : κ} (hkeyed : ∀ a ∈ group k', f a = k') :
    (group k').head?.toList.filter (f · = k) = if k' = k then (group k').head?.toList else [] := by
  split
  · next h =>
    refine List.filter_eq_self.2 fun a ha => decide_eq_true ?_
    rw [← h]
    exact hkeyed a (List.mem_of_mem_head? (Option.mem_toList.1 ha))
  · next h =>
    refine List.filter_eq_nil_iff.2 fun a ha => ?_
    rw [decide_eq_true_eq, hkeyed a (List.mem_of_mem_head? (Option.mem_toList.1 ha))]
    exact h

theorem heads_filter (hnodup : keys.Nodup) (hkeyed : ∀ k ∈ keys, ∀ a ∈ group k, f a = k) (k : κ) :
    ((keys.map group).filterMap List.head?).filter (f · = k) =
      if k ∈ keys then (group k).head?.toList else [] := by
  induction keys with
  | nil => rfl
  | cons first rest ih =>
    rw [List.nodup_cons] at hnodup
    rw [List.forall_mem_cons] at hkeyed
    have hsplit : ((first :: rest).map group).filterMap List.head? =
        (group first).head?.toList ++ (rest.map group).filterMap List.head? := by
      rw [List.map_cons, List.filterMap_cons]
      cases (group first).head? <;> rfl
    rw [hsplit, List.filter_append, ih hnodup.2 hkeyed.2, head_filter f hkeyed.1]
    by_cases hsame : first = k
    · subst hsame
      simp [hnodup.1]
    · have hne : ¬k = first := fun h => hsame h.symm
      simp [hsame, hne]

/-- In the rounds, the elements of a key keep their order. -/
theorem inRounds_filter {fuel : Nat} (hnodup : keys.Nodup)
    (hkeyed : ∀ k ∈ keys, ∀ a ∈ group k, f a = k) {k : κ} (hk : k ∈ keys)
    (hfuel : (keys.map group).flatten.length ≤ fuel) :
    (inRounds fuel (keys.map group)).filter (f · = k) = group k := by
  have hmem : ∀ a ∈ group k, a ∈ (keys.map group).flatten := fun a ha =>
    List.mem_flatten.2 ⟨group k, List.mem_map_of_mem hk, ha⟩
  induction fuel generalizing group with
  | zero =>
    have hempty : (keys.map group).flatten = [] := List.eq_nil_of_length_eq_zero (by omega)
    rw [hempty] at hmem
    exact (List.eq_nil_iff_forall_not_mem.2 fun a ha => (by cases hmem a ha)).symm
  | succ fuel ih =>
    rw [inRounds]
    split
    · next hany =>
      have hpos := heads_pos hany
      have hlength := (heads_tails_perm (keys.map group)).length_eq
      rw [List.length_append] at hlength
      have htails : (keys.map group).map List.tail = keys.map fun k => (group k).tail :=
        List.map_map
      rw [List.filter_append, heads_filter f hnodup hkeyed, if_pos hk, htails]
      rw [htails] at hlength
      rw [ih (fun k hk a ha => hkeyed k hk a (List.mem_of_mem_tail ha)) (by omega)
        fun a ha => List.mem_flatten.2 ⟨_, List.mem_map_of_mem hk, ha⟩]
      cases group k <;> rfl
    · next hnone =>
      rw [List.filter_nil]
      refine (List.eq_nil_iff_forall_not_mem.2 fun a ha => hnone ?_).symm
      refine List.any_eq_true.2 ⟨group k, List.mem_map_of_mem hk, ?_⟩
      cases hgroup : group k with
      | nil => rw [hgroup] at ha; cases ha
      | cons b rest => rfl

end Keyed

/-- The first group that is not empty has the first turn. -/
theorem inRounds_head {fuel : Nat} {a : α} {tail : List α} {rest : List (List α)} :
    (inRounds (fuel + 1) ((a :: tail) :: rest)).head? = some a := by
  simp [inRounds]

end Rounds

/-- The queue is in the order of its sequence numbers, which are all used up, and no two of
its operations have one identifier. -/
structure SchedulerState.Ordered (s : SchedulerState) : Prop where
  increasing : s.queue.Pairwise fun a b => a.sequence < b.sequence
  used : ∀ item ∈ s.queue, item.sequence < s.nextSequence
  distinct : (s.queue.map (·.operation.val.operationId)).Nodup

/-- The queue and what goes with it are as they were. -/
structure SameQueue (s s' : SchedulerState) : Prop where
  queue : s'.queue = s.queue
  nextSequence : s'.nextSequence = s.nextSequence
  lastTenant : s'.lastTenant = s.lastTenant

theorem SameQueue.refl (s : SchedulerState) : SameQueue s s := ⟨rfl, rfl, rfl⟩

theorem SameQueue.trans {a b c : SchedulerState} (h : SameQueue a b) (h' : SameQueue b c) :
    SameQueue a c :=
  ⟨h'.queue.trans h.queue, h'.nextSequence.trans h.nextSequence, h'.lastTenant.trans h.lastTenant⟩

namespace Scheduler

variable {router : Scheduler}

theorem routed_same {α : Type} (x : Routing α) (s : SchedulerState) :
    SameQueue s ((routed x).exec s).2 := ⟨rfl, rfl, rfl⟩

theorem queued_perm (s : SchedulerState) : (queued s).Perm s.queue := List.perm_insertionSort _ _

theorem queued_eq {s : SchedulerState} (h : s.Ordered) : queued s = s.queue :=
  List.Pairwise.insertionSort_eq (h.increasing.imp Nat.le_of_lt)

theorem tenantOrder_eq (s : SchedulerState) :
    tenantOrder s = RoundRobin.turns ((queued s).map (·.tenant)) s.lastTenant := by
  unfold tenantOrder RoundRobin.turns RoundRobin.startedAfter
  cases s.lastTenant with
  | none => rfl
  | some last => rfl

theorem perTenant_flatten_perm (s : SchedulerState) : (perTenant s).flatten.Perm s.queue := by
  have hnodup : (tenantOrder s).Nodup := by
    rw [tenantOrder_eq]
    exact RoundRobin.nodup_turns _ _
  have hgroups := Grouping.flatMap_filter_perm QueuedOperation.tenant hnodup (queued s)
  have hall : ∀ item ∈ queued s, decide (item.tenant ∈ tenantOrder s) = true := by
    intro item hitem
    rw [tenantOrder_eq, decide_eq_true_eq, RoundRobin.mem_turns]
    exact List.mem_map_of_mem hitem
  rw [List.filter_eq_self.2 hall] at hgroups
  rw [perTenant, ← List.flatMap_def]
  exact hgroups.trans (queued_perm s)

theorem orderedQueue_perm (s : SchedulerState) : (router.orderedQueue s).Perm s.queue := by
  unfold orderedQueue
  cases router.order with
  | fifo => exact queued_perm s
  | interactiveFirst => exact (List.perm_insertionSort _ _).trans (queued_perm s)
  | tenantRoundRobin =>
    have hflatten := perTenant_flatten_perm s
    have hfuel : (perTenant s).flatten.length ≤ (queued s).length := by
      rw [hflatten.length_eq, (queued_perm s).length_eq]
    exact (inRounds_perm hfuel).trans hflatten

theorem orderedQueue_head {s : SchedulerState} (hordered : s.Ordered)
    (hturns : router.order = .tenantRoundRobin) {item : QueuedOperation}
    (hitem : (router.orderedQueue s).head? = some item) :
    (RoundRobin.turns s.tenants s.lastTenant).head? = some item.tenant ∧
      s.queue.find? (fun other => other.tenant = item.tenant) = some item := by
  have horder : tenantOrder s = RoundRobin.turns s.tenants s.lastTenant := by
    rw [tenantOrder_eq, queued_eq hordered]
    rfl
  have hinTurns : router.orderedQueue s = inRounds (queued s).length (perTenant s) := by
    rw [orderedQueue, hturns]
  rw [hinTurns, perTenant, horder, queued_eq hordered] at hitem
  cases hcases : RoundRobin.turns s.tenants s.lastTenant with
  | nil =>
    rw [hcases] at hitem
    have hnone : ∀ fuel, inRounds fuel ([] : List (List QueuedOperation)) = [] := by
      intro fuel
      cases fuel with
      | zero => rfl
      | succ fuel => rfl
    rw [List.map_nil, hnone] at hitem
    cases hitem
  | cons tenant rest =>
    have hmem : tenant ∈ s.tenants := by
      have hin : tenant ∈ RoundRobin.turns s.tenants s.lastTenant := by
        rw [hcases]
        exact List.mem_cons_self ..
      exact RoundRobin.mem_turns.1 hin
    obtain ⟨other, hother, htenant⟩ := List.mem_map.1 hmem
    rw [hcases, List.map_cons] at hitem
    cases hqueue : s.queue with
    | nil => rw [hqueue] at hother; cases hother
    | cons head tail =>
      have hfind : (s.queue.filter fun a => a.tenant = tenant).head? =
          s.queue.find? fun a => a.tenant = tenant := List.head?_filter
      cases hgroup : s.queue.filter fun a => a.tenant = tenant with
      | nil =>
        have hin : other ∈ s.queue.filter fun a => a.tenant = tenant :=
          List.mem_filter.2 ⟨hother, decide_eq_true htenant⟩
        rw [hgroup] at hin
        cases hin
      | cons first group =>
        have hfirst : first ∈ s.queue.filter fun a => a.tenant = tenant := by
          rw [hgroup]
          exact List.mem_cons_self ..
        have hsame := of_decide_eq_true (List.mem_filter.1 hfirst).2
        rw [hgroup] at hfind hitem
        have hlength : s.queue.length = tail.length + 1 := by rw [hqueue, List.length_cons]
        rw [hlength, inRounds_head] at hitem
        cases hitem
        rw [hsame, ← hqueue]
        exact ⟨rfl, hfind.symm⟩

theorem admitted_lease {env : RoutingEnvironment} {operation : ModelOperation}
    {candidates : List ModelCandidate} {policy : Option RoutingPolicy} {now : DateTime}
    {s s' : RoutingState} {candidate : ModelCandidate} {lease : CapacityLease}
    {eligibility : List CandidateEligibility}
    (h : (ModelRouter.admitOperation env operation candidates policy now).exec s =
      (.ok (.admitted candidate lease eligibility), s')) :
    lease.operationId = operation.val.operationId := by
  obtain ⟨evaluated, t, -, hselect⟩ := bind_returns h
  have hexec := RoutedModelPlanner.select_exec env t ⟨operation, evaluated, now⟩
  dsimp only at hexec
  rw [hselect] at hexec
  by_cases hnobody : (RoutedModelPlanner.Routed.mk operation evaluated now).eligible = []
  · rw [if_pos hnobody] at hexec
    cases hexec
  · rw [if_neg hnobody] at hexec
    have hout := HierarchicalCapacity.acquireFirst_outcome env.zone t.capacity operation
      (RoutedModelPlanner.Routed.mk operation evaluated now).eligible now
    generalize t.capacity.acquireFirst env.zone operation
      (RoutedModelPlanner.Routed.mk operation evaluated now).eligible now = answer at hexec hout
    obtain ⟨result, capacity⟩ := answer
    cases hout with
    | unstamped => cases hexec
    | leased => cases hexec
    | acquired timestamp admission _ _ _ _ outcome =>
      cases outcome with
      | refused => cases hexec
      | admitted =>
        cases hexec
        rfl

/-- What a pass over some queued operations does: admit none of them, or admit one and take
it out of the queue. -/
inductive ScheduleOutcome (items : List QueuedOperation) (s : SchedulerState) :
    Except PyError (Option ModelAdmission) → SchedulerState → Prop
  | nothing (result : Except PyError (Option ModelAdmission)) (s' : SchedulerState)
    (idle : ∀ decision, result ≠ .ok (some decision)) (same : SameQueue s s') :
    ScheduleOutcome items s result s'
  | dispatched (item : QueuedOperation) (candidate : ModelCandidate) (lease : CapacityLease)
    (eligibility : List CandidateEligibility) (s' : SchedulerState) (mem : item ∈ items)
    (leased : lease.operationId = item.operation.val.operationId)
    (queue : s'.queue = s.queue.erase item) (last : s'.lastTenant = some item.tenant)
    (next : s'.nextSequence = s.nextSequence) :
    ScheduleOutcome items s (.ok (some (.admitted candidate lease eligibility))) s'

theorem scheduleFrom_outcome (now : DateTime) (items : List QueuedOperation) (s : SchedulerState) :
    ScheduleOutcome items s ((scheduleFrom router now items).exec s).1
      ((scheduleFrom router now items).exec s).2 := by
  induction items generalizing s with
  | nil => exact .nothing _ _ (fun decision h => by cases h) (.refl s)
  | cons item rest ih =>
    have hlease := @admitted_lease router.env item.operation item.candidates item.policy now
      s.routing
    have hsame := routed_same
      (ModelRouter.admitOperation router.env item.operation item.candidates item.policy now) s
    rw [scheduleFrom, exec_bind]
    unfold routed at hsame ⊢
    rw [exec_zoom] at hsame ⊢
    generalize (ModelRouter.admitOperation router.env item.operation item.candidates item.policy
      now).exec s.routing = answer at hlease hsame ⊢
    obtain ⟨error | decision, routing⟩ := answer
    · exact .nothing _ _ (fun decision h => by cases h) hsame
    · cases decision with
      | admitted candidate lease eligibility =>
        exact .dispatched item candidate lease eligibility _ (List.mem_cons_self ..) (hlease rfl)
          rfl rfl rfl
      | failed failure eligibility =>
        dsimp only at hsame ⊢
        have hrest := ih { s with routing := routing }
        generalize (scheduleFrom router now rest).exec { s with routing := routing } = answer
          at hrest ⊢
        obtain ⟨result, s'⟩ := answer
        cases hrest with
        | nothing _ _ idle same => exact .nothing _ _ idle (hsame.trans same)
        | dispatched item candidate lease eligibility _ mem leased queue last next =>
          exact .dispatched item candidate lease eligibility _ (List.mem_cons_of_mem _ mem) leased
            queue last next

/-- Where the first operation that is tried would be admitted, it is the one that goes. -/
theorem scheduleFrom_first {now : DateTime} {item : QueuedOperation} {rest : List QueuedOperation}
    {s : SchedulerState} {candidate : ModelCandidate} {lease : CapacityLease}
    {eligibility : List CandidateEligibility} {routing : RoutingState}
    (h : (ModelRouter.admitOperation router.env item.operation item.candidates item.policy
      now).exec s.routing = (.ok (.admitted candidate lease eligibility), routing)) :
    (scheduleFrom router now (item :: rest)).exec s =
      (.ok (some (.admitted candidate lease eligibility)),
        { s with
          routing := routing, queue := s.queue.erase item, lastTenant := some item.tenant }) := by
  rw [scheduleFrom, exec_bind]
  unfold routed
  rw [exec_zoom, h]
  rfl

end Scheduler

/-- What a call does to the queue: leave it, append to it, or dispatch one of it. -/
inductive QueueMove (s : SchedulerState) : SchedulerCall → SchedulerReply → SchedulerState → Prop
  | kept (call : SchedulerCall) (reply : SchedulerReply) (s' : SchedulerState)
    (same : SameQueue s s') (idle : ∀ decision, reply ≠ .scheduled (.ok (some decision))) :
    QueueMove s call reply s'
  | joined (operation : ModelOperation) (candidates : List ModelCandidate)
    (policy : Option RoutingPolicy) (s' : SchedulerState)
    (fresh : ∀ item ∈ s.queue, item.operation.val.operationId ≠ operation.val.operationId)
    (queue : s'.queue = s.queue ++ [⟨s.nextSequence, operation, candidates, policy⟩])
    (next : s'.nextSequence = s.nextSequence + 1) (last : s'.lastTenant = s.lastTenant) :
    QueueMove s (.enqueue operation candidates policy) (.enqueued (.ok ())) s'
  | dispatched (now : DateTime) (item : QueuedOperation) (candidate : ModelCandidate)
    (lease : CapacityLease) (eligibility : List CandidateEligibility) (s' : SchedulerState)
    (mem : item ∈ s.queue) (leased : lease.operationId = item.operation.val.operationId)
    (queue : s'.queue = s.queue.erase item) (last : s'.lastTenant = some item.tenant)
    (next : s'.nextSequence = s.nextSequence) :
    QueueMove s (.scheduleNext now)
      (.scheduled (.ok (some (.admitted candidate lease eligibility)))) s'

theorem queue_move (router : Scheduler) (call : SchedulerCall) (s : SchedulerState) :
    QueueMove s call (schedulerMachine router call s).1 (schedulerMachine router call s).2 := by
  cases call with
  | enqueue operation candidates policy =>
    by_cases hqueued : (s.queue.any fun item =>
        item.operation.val.operationId = operation.val.operationId) = true
    · have hexec : (router.enqueue operation candidates policy).exec s =
          (.error (.valueError
            ("operation " ++ router.repr operation.val.operationId ++
              " is already queued")), s) := by
        rw [Scheduler.enqueue, exec_bind, exec_get]
        dsimp only
        rw [if_pos hqueued]
        rfl
      simp only [schedulerMachine, hexec]
      exact .kept _ _ _ (.refl s) fun decision h => by cases h
    · have hexec : (router.enqueue operation candidates policy).exec s =
          (.ok (), { s with
            queue := s.queue ++ [⟨s.nextSequence, operation, candidates, policy⟩]
            nextSequence := s.nextSequence + 1 }) := by
        rw [Scheduler.enqueue, exec_bind, exec_get]
        dsimp only
        rw [if_neg hqueued]
        rfl
      simp only [schedulerMachine, hexec]
      refine .joined operation candidates policy _ (fun item hitem hsame => hqueued ?_) rfl rfl rfl
      exact List.any_eq_true.2 ⟨item, hitem, decide_eq_true hsame⟩
  | scheduleNext now =>
    have hout : Scheduler.ScheduleOutcome (router.orderedQueue s) s
        ((router.scheduleFrom now (router.orderedQueue s)).exec s).1
        ((router.scheduleFrom now (router.orderedQueue s)).exec s).2 :=
      Scheduler.scheduleFrom_outcome now (router.orderedQueue s) s
    have hexec : (router.scheduleNext now).exec s =
        (router.scheduleFrom now (router.orderedQueue s)).exec s := by
      rw [Scheduler.scheduleNext, exec_bind, exec_get]
    simp only [schedulerMachine, hexec]
    generalize (router.scheduleFrom now (router.orderedQueue s)).exec s = answer at hout ⊢
    obtain ⟨result, s'⟩ := answer
    cases hout with
    | nothing _ _ idle same =>
      exact .kept _ _ _ same fun decision h => idle decision (SchedulerReply.scheduled.inj h)
    | dispatched item candidate lease eligibility _ mem leased queue last next =>
      exact .dispatched now item candidate lease eligibility _
        ((Scheduler.orderedQueue_perm s).mem_iff.1 mem) leased queue last next
  | admission operation candidates policy now =>
    exact .kept _ _ _ (Scheduler.routed_same _ s) fun decision h => by cases h
  | complete lease =>
    exact .kept _ _ _ (Scheduler.routed_same _ s) fun decision h => by cases h

theorem SchedulerState.of_ordered (limits : Dict CapacityScope CapacityLimit) :
    (SchedulerState.of limits).Ordered :=
  ⟨List.Pairwise.nil, fun _ h => (by cases h), List.nodup_nil⟩

theorem SchedulerState.Ordered.step {s : SchedulerState} (h : s.Ordered) (router : Scheduler)
    (call : SchedulerCall) : (schedulerMachine router call s).2.Ordered := by
  have hmove := queue_move router call s
  generalize schedulerMachine router call s = answer at hmove ⊢
  obtain ⟨reply, s'⟩ := answer
  cases hmove with
  | kept _ _ _ same =>
    refine ⟨?_, ?_, ?_⟩
    · rw [same.queue]; exact h.increasing
    · rw [same.queue, same.nextSequence]; exact h.used
    · rw [same.queue]; exact h.distinct
  | joined operation candidates policy _ fresh queue next =>
    dsimp only
    refine ⟨?_, fun item hitem => ?_, ?_⟩
    · rw [queue, List.pairwise_append]
      refine ⟨h.increasing, List.pairwise_singleton .., fun item hitem new hnew => ?_⟩
      rw [List.mem_singleton.1 hnew]
      exact h.used item hitem
    · rw [queue, List.mem_append, List.mem_singleton] at hitem
      rw [next]
      rcases hitem with hitem | rfl
      · exact Nat.lt_succ_of_lt (h.used item hitem)
      · exact Nat.lt_succ_self _
    · rw [queue, List.map_append, List.nodup_append]
      refine ⟨h.distinct, List.nodup_singleton _, fun id hid new hnew => ?_⟩
      obtain ⟨item, hitem, rfl⟩ := List.mem_map.1 hid
      rw [List.map_singleton, List.mem_singleton] at hnew
      rw [hnew]
      exact fresh item hitem
  | dispatched _ item _ _ _ _ _ _ queue _ next =>
    dsimp only
    have hsub : (s.queue.erase item).Sublist s.queue := List.erase_sublist
    refine ⟨?_, fun other hother => ?_, ?_⟩
    · rw [queue]
      exact h.increasing.sublist hsub
    · rw [queue] at hother
      rw [next]
      exact h.used other (hsub.subset hother)
    · rw [queue]
      exact h.distinct.sublist (hsub.map _)

end AiRetrieval
