import AiRetrieval.Proofs.CapacityLimits
import AiRetrieval.Sanity.PlanOutcomes

/-! When a plan is refused for want of capacity: the executions that share a router hold each
other up where they ask under one identifier, and where the table still counts an admission
whose minute is over. -/

namespace AiRetrieval

open Program HierarchicalCapacity RoutedModelPlanner

/-- What a plan adds to the admissions of a scope: the seconds of its time and its tokens. -/
def plannedOn (env : RoutingEnvironment) (scope : CapacityScope) (t : PlannerTransition) :
    List (Rat × Nat) :=
  match t.input, t.reply with
  | .plan operationId work context responseReserveMs, .planned (.ok plan) =>
    let routed := ((route env operationId work context responseReserveMs).exec t.before).1
    let seconds := routed.bind fun routed => routed.now.seconds env.zone
    seconds.toOption.elim [] fun seconds =>
      entryOn plan.lease (seconds, plan.operation.val.estimatedTotalTokens) scope
  | _, _ => []

/-- The admissions of a run on a scope, oldest first. -/
def planned (env : RoutingEnvironment) (limits : Dict CapacityScope CapacityLimit)
    (calls : List PlannerCall) (scope : CapacityScope) : List (Rat × Nat) :=
  ((plannerMachine env).history (.of limits) calls).flatMap (plannedOn env scope)

/-- One more operation of `tokens` stays within every limit of the scope, where a minute is a
minute of the times themselves. -/
structure RoomWithin (s : HierarchicalCapacity) (log : List (Rat × Nat)) (seconds : Rat)
    (tokens : Nat) (limit : CapacityLimit) (scope : CapacityScope) : Prop where
  concurrency : ∀ most, limit.val.concurrency = some most → s.activeCount scope < most
  requests : ∀ most, limit.val.requestsPerMinute = some most →
    (log.filter fun e => seconds - 60 < e.1).length < most
  tokens : ∀ most, limit.val.tokensPerMinute = some most →
    ((log.filter fun e => seconds - 60 < e.1).map Prod.snd).sum + tokens ≤ most

def FreeWithin (s : HierarchicalCapacity) (log : CapacityScope → List (Rat × Nat))
    (seconds : Rat) (operation : ModelOperation) (candidate : ModelCandidate) : Prop :=
  ∀ scope ∈ scopesFor operation candidate, ∀ limit, s.limits.get? scope = some limit →
    RoomWithin s (log scope) seconds operation.val.estimatedTotalTokens limit scope

/-- The call is a plan whose routing gives `routed`, at `seconds` since the epoch. -/
structure PlansAt (env : RoutingEnvironment) (t : PlannerTransition) (operationId : String)
    (routed : Routed) (seconds : Rat) : Prop where
  asked : ∃ work context responseReserveMs,
    t.input = .plan operationId work context responseReserveMs ∧
      ((route env operationId work context responseReserveMs).exec t.before).1 = .ok routed
  seconds : routed.now.seconds env.zone = .ok seconds

variable (env : RoutingEnvironment) (log : CapacityScope → List (Rat × Nat))
  (t : PlannerTransition)

/-- A plan that fails with `capacity_unavailable` had no room for any eligible candidate. -/
def RefusedOnlyFull : Prop :=
  ∀ operationId routed seconds, PlansAt env t operationId routed seconds →
    t.reply = .planned (.error (.modelPlanningError .capacityUnavailable)) →
    ∀ candidate ∈ routed.eligible,
      ¬FreeWithin t.before.capacity log seconds routed.operation candidate

/-- No plan is asked for under an identifier that is leased while it has room. -/
def AskedWhileFree : Prop :=
  ∀ operationId routed seconds, PlansAt env t operationId routed seconds →
    t.before.capacity.leases.contains operationId = true →
    ∀ candidate ∈ routed.eligible,
      ¬FreeWithin t.before.capacity log seconds routed.operation candidate

/-- No plan has room while what the table still counts leaves none. -/
def CountedInTime : Prop :=
  ∀ operationId routed seconds timestamp, PlansAt env t operationId routed seconds →
    routed.now.timestamp env.zone = .ok timestamp →
    (∀ candidate ∈ routed.eligible,
      ¬t.before.capacity.Admissible timestamp routed.operation candidate) →
    ∀ candidate ∈ routed.eligible,
      ¬FreeWithin t.before.capacity log seconds routed.operation candidate

variable {env log}

theorem PlansAt.refused_iff {s : RoutingState} {call : PlannerCall} {operationId : String}
    {routed : Routed} {seconds timestamp : Rat}
    (h : PlansAt env ((plannerMachine env).transition s call) operationId routed seconds)
    (hstamp : routed.now.timestamp env.zone = .ok timestamp) (hsome : routed.eligible ≠ []) :
    ((plannerMachine env).transition s call).reply =
        .planned (.error (.modelPlanningError .capacityUnavailable)) ↔
      s.capacity.leases.contains operationId = true ∨ ∀ candidate ∈ routed.eligible,
        ¬s.capacity.Admissible timestamp routed.operation candidate := by
  obtain ⟨work, context, responseReserveMs, rfl, hrouted⟩ := h.asked
  exact (PlannerReply.planned.injEq _ _).to_iff.trans (plan_refused_iff hrouted hstamp hsome)

theorem step_refusedOnlyFull_iff (s : RoutingState) (call : PlannerCall) :
    RefusedOnlyFull env log ((plannerMachine env).transition s call) ↔
      AskedWhileFree env log ((plannerMachine env).transition s call) ∧
        CountedInTime env log ((plannerMachine env).transition s call) := by
  constructor
  · intro h
    -- a leased identifier and a table without room are both answered by a refusal
    refine ⟨fun operationId routed seconds hplans hleased candidate hcandidate => ?_,
      fun operationId routed seconds timestamp hplans hstamp hfull candidate hcandidate => ?_⟩
    · obtain ⟨timestamp, hstamp⟩ := DateTime.timestamp_of_seconds hplans.seconds
      have hrefused := (hplans.refused_iff hstamp (List.ne_nil_of_mem hcandidate)).2
        (.inl hleased)
      exact h operationId routed seconds hplans hrefused candidate hcandidate
    · have hrefused := (hplans.refused_iff hstamp (List.ne_nil_of_mem hcandidate)).2 (.inr hfull)
      exact h operationId routed seconds hplans hrefused candidate hcandidate
  · rintro ⟨hasked, hcounted⟩ operationId routed seconds hplans hreply candidate hcandidate
    obtain ⟨timestamp, hstamp⟩ := DateTime.timestamp_of_seconds hplans.seconds
    rcases (hplans.refused_iff hstamp (List.ne_nil_of_mem hcandidate)).1 hreply with
      hleased | hfull
    · exact hasked operationId routed seconds hplans hleased candidate hcandidate
    · exact hcounted operationId routed seconds timestamp hplans hstamp hfull candidate hcandidate

section Clock

/-- The clock answers with aware times that never go back, at which binary64 keeps the
microseconds and the minute. -/
structure SteadyClock (env : RoutingEnvironment) : Prop where
  aware : ∀ n moment, env.clock n = .ok moment → moment.aware = true
  steady : ∀ n moment seconds, env.clock n = .ok moment →
    moment.seconds env.zone = .ok seconds → Steady seconds
  ordered : ∀ m n a b, m ≤ n → env.clock m = .ok a → env.clock n = .ok b → a.instant ≤ b.instant

/-- What the table keeps of the admissions. -/
def stamped (log : CapacityScope → List (Rat × Nat)) (scope : CapacityScope) : List (Rat × Nat) :=
  (log scope).map fun e => (binary64 e.1, e.2)

/-- The table is right about the admissions at every time the clock can still answer. -/
structure TracksClock (env : RoutingEnvironment) (log : CapacityScope → List (Rat × Nat))
    (s : RoutingState) : Prop where
  read : ∀ scope, ∀ e ∈ log scope, ∃ n < s.moment, ∃ moment,
    env.clock n = .ok moment ∧ moment.seconds env.zone = .ok e.1
  table : ∀ n moment timestamp, s.moment ≤ n → env.clock n = .ok moment →
    moment.timestamp env.zone = .ok timestamp →
    CapacityInvariant (stamped log) timestamp s.capacity

variable {s s' : RoutingState}

theorem SteadyClock.seconds_le (hclock : SteadyClock env) {m n : Nat} {a b : DateTime}
    {earlier later : Rat} (hle : m ≤ n) (ha : env.clock m = .ok a) (hb : env.clock n = .ok b)
    (hearlier : a.seconds env.zone = .ok earlier) (hlater : b.seconds env.zone = .ok later) :
    earlier ≤ later := by
  unfold DateTime.seconds at hearlier hlater
  rw [if_pos (hclock.aware m a ha)] at hearlier
  rw [if_pos (hclock.aware n b hb)] at hlater
  cases hearlier
  cases hlater
  have hinstant : ((a.instant - DateTime.epoch : Int) : Rat) ≤
    (b.instant - DateTime.epoch : Int) := by
    exact_mod_cast sub_le_sub_right (hclock.ordered m n a b hle ha hb) DateTime.epoch
  exact div_le_div_of_nonneg_right hinstant (by norm_num)

theorem SteadyClock.timestamp_le (hclock : SteadyClock env) {m n : Nat} {a b : DateTime}
    {earlier later : Rat} (hle : m ≤ n) (ha : env.clock m = .ok a) (hb : env.clock n = .ok b)
    (hearlier : a.timestamp env.zone = .ok earlier)
    (hlater : b.timestamp env.zone = .ok later) : earlier ≤ later := by
  obtain ⟨x, hx⟩ := DateTime.seconds_of_timestamp hearlier
  obtain ⟨y, hy⟩ := DateTime.seconds_of_timestamp hlater
  cases hearlier.symm.trans (DateTime.timestamp_of_aware (hclock.aware m a ha) hx)
  cases hlater.symm.trans (DateTime.timestamp_of_aware (hclock.aware n b hb) hy)
  exact binary64_mono (hclock.seconds_le hle ha hb hx hy)

theorem TracksClock.start (limits : Dict CapacityScope CapacityLimit) :
    TracksClock env (fun _ => []) (.of limits) where
  read _ _ h := by cases h
  table _ _ timestamp _ _ _ := start_invariant limits timestamp

theorem TracksClock.asks (h : TracksClock env log s) (hmoment : s.moment ≤ s'.moment)
    (hcapacity : s'.capacity = s.capacity) : TracksClock env log s' where
  read scope e he := by
    obtain ⟨n, hn, hread⟩ := h.read scope e he
    exact ⟨n, hn.trans_le hmoment, hread⟩
  table n moment timestamp hle hread hstamp := by
    rw [hcapacity]
    exact h.table n moment timestamp (hmoment.trans hle) hread hstamp

theorem stamped_append (log : CapacityScope → List (Rat × Nat))
    (new : CapacityScope → List (Rat × Nat)) :
    stamped (fun scope => log scope ++ new scope) =
      fun scope => stamped log scope ++ stamped new scope := by
  funext scope
  exact List.map_append

theorem stamped_entryOn (lease : CapacityLease) (seconds : Rat) (tokens : Nat) :
    stamped (entryOn lease (seconds, tokens)) = entryOn lease (binary64 seconds, tokens) := by
  funext scope
  exact map_entryOn _ lease _ scope

/-- What a plan adds at a reading of the clock, in a table that is right at that reading, leaves
it right from then on. -/
theorem TracksClock.adds (hclock : SteadyClock env) (h : TracksClock env log s) {k : Nat}
    {now : DateTime} {timestamp : Rat} {new : CapacityScope → List (Rat × Nat)}
    (hk : s.moment ≤ k) (hafter : k < s'.moment) (hnow : env.clock k = .ok now)
    (hstamp : now.timestamp env.zone = .ok timestamp)
    (hnew : ∀ scope, ∀ e ∈ new scope, now.seconds env.zone = .ok e.1)
    (htable : CapacityInvariant (fun scope => stamped log scope ++ stamped new scope) timestamp
      s'.capacity) :
    TracksClock env (fun scope => log scope ++ new scope) s' where
  read scope e he := by
    rcases List.mem_append.1 he with he | he
    · obtain ⟨n, hn, hread⟩ := h.read scope e he
      exact ⟨n, hn.trans_le (hk.trans hafter.le), hread⟩
    · exact ⟨k, hafter, now, hnow, hnew scope e he⟩
  table n moment later hle hread hlater := by
    rw [stamped_append]
    exact htable.later (hclock.timestamp_le (hafter.le.trans hle) hnow hread hstamp hlater)

theorem plannedOn_planned {operationId : String} {work : ModelWork} {context : ExecutionContext}
    {responseReserveMs : Nat} {routed : Routed} {plan : ModelPlan} {seconds : Rat}
    (hasked : ((route env operationId work context responseReserveMs).exec s).1 = .ok routed)
    (hseconds : routed.now.seconds env.zone = .ok seconds)
    (hoperation : plan.operation = routed.operation) (after : RoutingState) :
    (fun scope => plannedOn env scope ⟨s, .plan operationId work context responseReserveMs,
      .planned (.ok plan), after⟩) =
      entryOn plan.lease (seconds, routed.operation.val.estimatedTotalTokens) := by
  funext scope
  simp only [plannedOn, hasked, Except.bind, hseconds, Except.toOption, Option.elim_some,
    hoperation]

theorem TracksClock.planned (hclock : SteadyClock env) (h : TracksClock env log s)
    (operationId : String) (work : ModelWork) (context : ExecutionContext)
    (responseReserveMs : Nat) :
    TracksClock env (fun scope => log scope ++ plannedOn env scope
        ((plannerMachine env).transition s (.plan operationId work context responseReserveMs)))
      ((plan env operationId work context responseReserveMs).exec s).2 := by
  have hmoment := (route_asks env operationId work context responseReserveMs s).moment
  unfold after at hmoment
  rw [← plan_moment] at hmoment
  have hreading : ∀ routed,
      ((route env operationId work context responseReserveMs).exec s).1 = .ok routed →
      ∃ n, s.moment ≤ n ∧
        n < ((plan env operationId work context responseReserveMs).exec s).2.moment ∧
        env.clock n = .ok routed.now := by
    intro routed hrouted
    rw [plan_moment]
    exact route_clock (Prod.ext hrouted rfl)
  have hout := plan_outcome env s operationId work context responseReserveMs
  simp only [Machine.transition, plannerMachine]
  generalize (plan env operationId work context responseReserveMs).exec s = answer
    at hout hmoment hreading ⊢
  obtain ⟨reply, after⟩ := answer
  dsimp only at hmoment hreading
  cases hout with
  | unrouted e _ _ same => simpa [plannedOn] using h.asks hmoment same
  | ineligible routed failure _ _ _ _ same => simpa [plannedOn] using h.asks hmoment same
  | unstamped routed e _ _ _ same => simpa [plannedOn] using h.asks hmoment same
  | leased routed _ _ _ _ _ same => simpa [plannedOn] using h.asks hmoment same
  | full routed timestamp _ asked stamp _ prunes _ =>
    obtain ⟨k, hk, hafter, hnow⟩ := hreading routed asked
    refine h.adds hclock hk hafter hnow stamp (fun scope e he => by cases he) ?_
    simp only [plannedOn, stamped, List.map_nil, List.append_nil]
    exact (h.table k routed.now timestamp hk hnow stamp).prunes prunes
  | planned routed timestamp plan _ pruned asked stamp free operation_eq mem prunes admissible
      lease_eq granted =>
    obtain ⟨k, hk, hafter, hnow⟩ := hreading routed asked
    obtain ⟨seconds, hseconds⟩ := DateTime.seconds_of_timestamp stamp
    have hid : routed.operation.val.operationId = operationId :=
      route_operation (Prod.ext asked rfl)
    obtain rfl : binary64 seconds = timestamp :=
      Except.ok.inj ((DateTime.timestamp_of_aware (hclock.aware k _ hnow) hseconds).symm.trans
        stamp)
    have hnew := plannedOn_planned asked hseconds operation_eq after
    refine h.adds hclock hk hafter hnow stamp (fun scope e he => ?_) ?_
    · rw [congrFun hnew scope, entryOn] at he
      split at he
      · rw [List.mem_singleton.1 he]
        exact hseconds
      · cases he
    · rw [hnew, stamped_entryOn, granted, lease_eq, ← hid]
      exact (h.table k routed.now _ hk hnow stamp).granted prunes (by rw [hid]; exact free)
        admissible

theorem TracksClock.step (hclock : SteadyClock env) (h : TracksClock env log s)
    (call : PlannerCall) :
    TracksClock env (fun scope => log scope ++
        plannedOn env scope ((plannerMachine env).transition s call))
      (plannerMachine env call s).2 := by
  cases call with
  | complete plan =>
    simp only [plannedOn, Machine.transition, List.append_nil]
    exact ⟨h.read, fun n moment timestamp hle hread hstamp =>
      (h.table n moment timestamp hle hread hstamp).released plan.lease⟩
  | plan operationId work context responseReserveMs =>
    exact h.planned hclock operationId work context responseReserveMs

theorem TracksClock.run (hclock : SteadyClock env) (h : TracksClock env log s)
    (calls : List PlannerCall) :
    TracksClock env (fun scope => log scope ++
        ((plannerMachine env).history s calls).flatMap (plannedOn env scope))
      ((plannerMachine env).run s calls) := by
  induction calls generalizing log s with
  | nil => simpa using h
  | cons call rest ih => simpa [List.append_assoc] using ih (h.step hclock call)

/-- What the table still counts of a scope is what was admitted within the minute. -/
theorem TracksClock.recent_eq (hclock : SteadyClock env) (h : TracksClock env log s) {n : Nat}
    {now : DateTime} {seconds timestamp : Rat} (hn : s.moment ≤ n) (hnow : env.clock n = .ok now)
    (hseconds : now.seconds env.zone = .ok seconds)
    (hstamp : now.timestamp env.zone = .ok timestamp) (scope : CapacityScope) :
    s.capacity.recent timestamp scope =
      ((log scope).filter fun e => seconds - 60 < e.1).map fun e => (binary64 e.1, e.2) := by
  rw [(h.table n now timestamp hn hnow hstamp).recent_eq, stamped, List.filter_map]
  congr 1
  refine List.filter_congr fun e he => ?_
  obtain ⟨m, hm, moment, hread, hentry⟩ := h.read scope e he
  cases hstamp.symm.trans (DateTime.timestamp_of_aware (hclock.aware n now hnow) hseconds)
  refine decide_eq_decide.2 (cutoff_lt_iff (DateTime.seconds_whole hentry)
    (DateTime.seconds_whole hseconds) (hclock.steady n now seconds hnow hseconds) ?_)
  exact hclock.seconds_le (hm.le.trans hn) hread hnow hentry hseconds

/-- At the times of a steady clock the table has room where the minute has. -/
theorem TracksClock.admissible_iff (hclock : SteadyClock env) (h : TracksClock env log s) {n : Nat}
    {now : DateTime} {seconds timestamp : Rat} (hn : s.moment ≤ n) (hnow : env.clock n = .ok now)
    (hseconds : now.seconds env.zone = .ok seconds)
    (hstamp : now.timestamp env.zone = .ok timestamp) (operation : ModelOperation)
    (candidate : ModelCandidate) : s.capacity.Admissible timestamp operation candidate ↔
      FreeWithin s.capacity log seconds operation candidate := by
  refine forall₄_congr fun scope _ limit _ => ?_
  have hrecent := h.recent_eq hclock hn hnow hseconds hstamp scope
  constructor
  · rintro ⟨hconcurrency, hrequests, htokens⟩
    rw [hrecent] at hrequests htokens
    exact ⟨hconcurrency, by simpa using hrequests, by simpa [Function.comp_def] using htokens⟩
  · rintro ⟨hconcurrency, hrequests, htokens⟩
    refine ⟨hconcurrency, ?_, ?_⟩
    · rw [hrecent]
      simpa using hrequests
    · rw [hrecent]
      simpa [Function.comp_def] using htokens

theorem TracksClock.countedInTime (hclock : SteadyClock env) (h : TracksClock env log s)
    (call : PlannerCall) : CountedInTime env log ((plannerMachine env).transition s call) := by
  intro operationId routed seconds timestamp hplans hstamp hfull candidate hcandidate hfree
  obtain ⟨work, context, responseReserveMs, -, hrouted⟩ := hplans.asked
  obtain ⟨n, hn, -, hnow⟩ := route_clock (Prod.ext hrouted rfl)
  exact hfull candidate hcandidate
    ((h.admissible_iff hclock hn hnow hplans.seconds hstamp _ _).2 hfree)

end Clock

section Run

variable (env : RoutingEnvironment) (limits : Dict CapacityScope CapacityLimit)

/-- A property of a call and of the admissions before it, for every call of a run. -/
def AtEachPlan (P : (CapacityScope → List (Rat × Nat)) → PlannerTransition → Prop)
    (calls : List PlannerCall) : Prop :=
  ∀ before call rest, calls = before ++ call :: rest →
    P (planned env limits before)
      ((plannerMachine env).transition ((plannerMachine env).run (.of limits) before) call)

end Run

/-- In every run of the executions that share a router, plans are refused only for want of
room exactly when no plan with room left asks under an identifier that is leased or is counted
out by admissions whose minute is over; the second does not happen with a steady clock. -/
theorem capacity_refusals_iff (env : RoutingEnvironment)
    (limits : Dict CapacityScope CapacityLimit) (calls : List PlannerCall) :
    (AtEachPlan env limits (RefusedOnlyFull env) calls ↔
      AtEachPlan env limits (AskedWhileFree env) calls ∧
        AtEachPlan env limits (CountedInTime env) calls) ∧
    (SteadyClock env → AtEachPlan env limits (CountedInTime env) calls) := by
  refine ⟨⟨fun h => ⟨?_, ?_⟩, ?_⟩, ?_⟩
  · intro before call rest hcalls
    exact ((step_refusedOnlyFull_iff _ call).1 (h before call rest hcalls)).1
  · intro before call rest hcalls
    exact ((step_refusedOnlyFull_iff _ call).1 (h before call rest hcalls)).2
  · rintro ⟨hasked, hcounted⟩ before call rest hcalls
    exact (step_refusedOnlyFull_iff _ call).2
      ⟨hasked before call rest hcalls, hcounted before call rest hcalls⟩
  · intro hclock before call rest _
    have htracked := (@TracksClock.start env limits).run hclock before
    simp only [List.nil_append] at htracked
    exact htracked.countedInTime hclock call

namespace Sample

/-- A policy that lets the sample candidate through. -/
def routingPolicy : RoutingPolicy := ⟨{
  version := "policy-1"
  decision := .allow
  available := true
  valid := true
  allowedProviderIds := .singleton "provider-a"
  allowedDataClasses := .none }, by decide +kernel⟩

def routing : RoutingEnvironment where
  float value := match value with
    | .float value => .ok value
    | _ => .error (.typeError "float() argument must be a string or a real number")
  candidates _ _ _ := .ok [candidate]
  policy _ _ := .ok (some routingPolicy)
  clock _ := .ok (time 0)
  zone := localZone
  isAvailable _ _ _ := .ok true

def interactiveContext (executionId : ExecutionId) : ExecutionContext :=
  { context with executionId := executionId, path := .interactive }

def requestA : ExecutionId := ⟨"request-a", rfl⟩

/-- The first model operations of two requests, the second while the first is out. -/
def twoRequests : List PlannerCall :=
  [.plan (modelId 0 modelWork) modelWork (interactiveContext requestA) 0,
    .plan (modelId 0 modelWork) modelWork (interactiveContext ⟨"request-b", rfl⟩) 0]

def beforePower : DateTime := ⟨true, DateTime.epoch + 2147483600000003⟩

def minuteLater : DateTime := ⟨true, beforePower.instant + 60000000⟩

/-- A clock that gives the first plan that time, the second one a minute later. -/
def minuteClock : RoutingEnvironment :=
  { routing with clock n := .ok (if n < 4 then beforePower else minuteLater) }

def twoOperations : List PlannerCall :=
  [.plan (modelId 0 modelWork) modelWork (interactiveContext requestA) 0,
    .plan (modelId 1 modelWork) modelWork (interactiveContext requestA) 0]

theorem get?_requestLimits {scope : CapacityScope} {limit : CapacityLimit}
    (h : requestLimits.get? scope = some limit) : scope = systemScope ∧ limit = oneRequest := by
  rw [requestLimits, Dict.get?_insert] at h
  split at h
  · next hscope =>
    cases h
    exact ⟨hscope, rfl⟩
  · cases h

def asked (operationId : String) (executionId : ExecutionId) (now : DateTime)
    (h : ModelOperation.postInit ⟨operationId, "interactive", executionId.val, .interactive,
      modelWork, 0, 0, [], none, 0⟩ = .ok ()) : Routed :=
  ⟨⟨_, h⟩, [⟨candidate, []⟩], now⟩

end Sample

/-- Without any limit at all, the second of two requests is refused; and with one request a
minute the second of two operations is refused though the minute of the first is over. -/
theorem request_held_up :
    (¬AtEachPlan Sample.routing .empty (RefusedOnlyFull Sample.routing) Sample.twoRequests) ∧
    ¬AtEachPlan Sample.minuteClock Sample.requestLimits (RefusedOnlyFull Sample.minuteClock)
      Sample.twoOperations := by
  constructor
  · intro h
    have hsecond := h [Sample.twoRequests[0]] Sample.twoRequests[1] [] rfl
    refine hsecond "model:0:classify" (Sample.asked "model:0:classify" ⟨"request-b", rfl⟩
      (Sample.time 0) (by decide +kernel)) (-62135596800)
      ⟨⟨_, _, _, rfl, by decide +kernel⟩, by decide +kernel⟩ (by decide +kernel)
      Sample.candidate (by decide +kernel) ?_
    -- the table has no limit to look up
    intro scope _ limit hlimit
    replace hlimit : none = some limit := hlimit
    cases hlimit
  · intro h
    have hsecond := h [Sample.twoOperations[0]] Sample.twoOperations[1] [] rfl
    refine hsecond "model:1:classify" (Sample.asked "model:1:classify" Sample.requestA
      Sample.minuteLater (by decide +kernel)) (2147483660000003 / 1000000)
      ⟨⟨_, _, _, rfl, by decide +kernel⟩, by decide +kernel⟩
      (by decide +kernel) Sample.candidate (by decide +kernel) ?_
    -- only the system has a limit, and its one admission is a minute old
    intro scope _ limit hlimit
    obtain ⟨rfl, rfl⟩ := Sample.get?_requestLimits hlimit
    refine ⟨fun most hmost => (by cases hmost), fun most hmost => ?_, fun most hmost =>
      (by cases hmost)⟩
    cases hmost
    decide +kernel

end AiRetrieval
