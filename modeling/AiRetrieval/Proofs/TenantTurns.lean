import AiRetrieval.Proofs.CapacityRefusals
import AiRetrieval.Sanity.QueuedOperations

/-! When the tenants of a router in turns are all served. The turns are rebuilt from the queue
at every pass, so they are fair where a dispatch and a new tenant leave the rest in order. -/

namespace AiRetrieval

open Program

def dispatched (t : SchedulerTransition) : Option QueuedOperation :=
  match t.reply with
  | .scheduled (.ok (some (.admitted _ lease _))) =>
    t.before.queue.find? fun item => item.operation.val.operationId = lease.operationId
  | _ => none

def Dispatches (tenant : String) (t : SchedulerTransition) : Prop :=
  (dispatched t).map (·.tenant) = some tenant

/-- Between two dispatches of one tenant with none of it between them, every other tenant that
had an operation queued throughout is dispatched. -/
def TenantsFair (history : List SchedulerTransition) : Prop :=
  ∀ earlier t between t' later tenant waiting,
    history = earlier ++ t :: (between ++ t' :: later) →
    Dispatches tenant t → Dispatches tenant t' → (∀ u ∈ between, ¬Dispatches tenant u) →
    waiting ≠ tenant → (∀ u ∈ t :: between, waiting ∈ u.after.tenants) →
    ∃ u ∈ between, Dispatches waiting u

/-- Every operation in the queue would be admitted by the pass a transition makes. -/
def AllAdmitted (router : Scheduler) (t : SchedulerTransition) : Prop :=
  ∀ now, t.input = .scheduleNext now → ∀ item ∈ t.before.queue,
    ∃ candidate lease eligibility routing,
      (ModelRouter.admitOperation router.env item.operation item.candidates item.policy now).exec
        t.before.routing = (.ok (.admitted candidate lease eligibility), routing)

/-- A pass leaves the tenants behind the first in their order, and a tenant that was served and
joins the queue again goes behind those that wait, save the one dispatched last. -/
def KeepsTurns (served : String → Prop) (t : SchedulerTransition) : Prop :=
  match t.input with
  | .enqueue operation _ _ =>
    (∀ item ∈ t.before.queue, item.operation.val.operationId ≠ operation.val.operationId) →
      served operation.val.tenantId →
      RoundRobin.JoinsBehind t.before.tenants t.before.lastTenant operation.val.tenantId
  | .scheduleNext _ => RoundRobin.KeepsTurns t.before.tenants t.before.lastTenant
  | _ => True

def RunKeepsTurns (history : List SchedulerTransition) : Prop :=
  ∀ earlier t later, history = earlier ++ t :: later →
    KeepsTurns (fun tenant => ∃ u ∈ earlier, Dispatches tenant u) t

theorem KeepsTurns.mono {served others : String → Prop} {t : SchedulerTransition}
    (h : KeepsTurns served t) (hothers : ∀ tenant, others tenant → served tenant) :
    KeepsTurns others t := by
  unfold KeepsTurns at h ⊢
  split
  · next hinput =>
    rw [hinput] at h
    exact fun hfresh hserved => h hfresh (hothers _ hserved)
  · next hinput =>
    rw [hinput] at h
    exact h
  · trivial

/-- Taking out the first element with a value takes the first such value out of the image. -/
theorem map_erase_first {α β : Type} [DecidableEq α] [DecidableEq β] (f : α → β) {l : List α}
    {a : α} (h : l.find? (fun b => f b = f a) = some a) : (l.erase a).map f =
      (l.map f).erase (f a) := by
  induction l with
  | nil => rfl
  | cons b rest ih =>
    by_cases hb : f b = f a
    · have hfirst : b = a := by simpa [List.find?_cons, hb] using h
      subst hfirst
      simp
    · have hne : b ≠ a := fun hsame => hb (by rw [hsame])
      rw [List.find?_cons_of_neg (by simpa using hb)] at h
      rw [List.erase_cons_tail (by simpa using hne), List.map_cons, List.map_cons,
        List.erase_cons_tail (by simpa using hb), ih h]

theorem find_of_distinct {α β : Type} [DecidableEq β] {f : α → β} {l : List α} {a : α}
    (hdistinct : (l.map f).Nodup) (ha : a ∈ l) : l.find? (fun b => f b = f a) = some a := by
  cases hfind : l.find? (fun b => f b = f a) with
  | none => exact absurd (decide_eq_true rfl) (List.find?_eq_none.1 hfind a ha)
  | some b =>
    have hsame : f b = f a := by simpa using List.find?_some hfind
    rw [List.inj_on_of_nodup_map hdistinct (List.mem_of_find?_eq_some hfind) ha hsame]

theorem dispatched_input {router : Scheduler} {call : SchedulerCall} {s : SchedulerState}
    {item : QueuedOperation}
    (h : dispatched ((schedulerMachine router).transition s call) = some item) :
    ∃ now, call = .scheduleNext now := by
  cases call with
  | scheduleNext now => exact ⟨now, rfl⟩
  | enqueue => cases h
  | admission => cases h
  | complete => cases h

theorem pass_outcome {router : Scheduler} (hturns : router.order = .tenantRoundRobin)
    {s : SchedulerState} (hordered : s.Ordered) {now : DateTime}
    (hall : AllAdmitted router ((schedulerMachine router).transition s (.scheduleNext now))) :
    s.queue = [] ∨ ∃ item,
      dispatched ((schedulerMachine router).transition s (.scheduleNext now)) = some item ∧
      (RoundRobin.turns s.tenants s.lastTenant).head? = some item.tenant ∧
      (schedulerMachine router (.scheduleNext now) s).2.tenants = s.tenants.erase item.tenant ∧
      (schedulerMachine router (.scheduleNext now) s).2.lastTenant = some item.tenant := by
  have hperm : (router.orderedQueue s).Perm s.queue := Scheduler.orderedQueue_perm s
  cases hcases : router.orderedQueue s with
  | nil =>
    rw [hcases] at hperm
    exact Or.inl hperm.symm.eq_nil
  | cons item rest =>
    have hitem : item ∈ s.queue := by
      rw [← hperm.mem_iff, hcases]
      exact List.mem_cons_self ..
    obtain ⟨candidate, lease, eligibility, routing, hadmit⟩ := hall now rfl item hitem
    replace hadmit : (ModelRouter.admitOperation router.env item.operation item.candidates
      item.policy now).exec s.routing = (.ok (.admitted candidate lease eligibility), routing) :=
      hadmit
    have hexec : (router.scheduleNext now).exec s =
        (router.scheduleFrom now (router.orderedQueue s)).exec s := by
      rw [Scheduler.scheduleNext, exec_bind, exec_get]
    rw [hcases, Scheduler.scheduleFrom_first hadmit] at hexec
    obtain ⟨hturn, hfirst⟩ := Scheduler.orderedQueue_head hordered hturns
      (show (router.orderedQueue s).head? = some item by rw [hcases]; rfl)
    refine Or.inr ⟨item, ?_, hturn, ?_, ?_⟩
    · simp only [dispatched, Machine.transition, schedulerMachine, hexec]
      rw [Scheduler.admitted_lease hadmit]
      exact find_of_distinct hordered.distinct hitem
    · simp only [schedulerMachine, hexec]
      exact map_erase_first QueuedOperation.tenant hfirst
    · simp only [schedulerMachine, hexec]

section Between

variable {router : Scheduler} {tenant waiting : String}

structure AheadOf (tenant waiting : String) (s : SchedulerState) : Prop where
  waits : waiting ∈ s.tenants
  ahead : RoundRobin.Ahead s.tenants s.lastTenant waiting tenant
  notLast : s.lastTenant ≠ some waiting

theorem AheadOf.same {s s' : SchedulerState} (h : AheadOf tenant waiting s)
    (same : SameQueue s s') : AheadOf tenant waiting s' := by
  have htenants : s'.tenants = s.tenants := by rw [SchedulerState.tenants, same.queue]; rfl
  refine ⟨?_, ?_, ?_⟩
  · rw [htenants]; exact h.waits
  · rw [htenants, same.lastTenant]; exact h.ahead
  · rw [same.lastTenant]; exact h.notLast

theorem aheadOf_dispatched (hturns : router.order = .tenantRoundRobin) {s : SchedulerState}
    (hordered : s.Ordered) {call : SchedulerCall}
    (hall : AllAdmitted router ((schedulerMachine router).transition s call))
    (hdispatches : Dispatches tenant ((schedulerMachine router).transition s call))
    (hne : waiting ≠ tenant) (hwaits : waiting ∈ (schedulerMachine router call s).2.tenants) :
    AheadOf tenant waiting (schedulerMachine router call s).2 := by
  obtain ⟨item, hitem, htenant⟩ := Option.map_eq_some_iff.1 hdispatches
  obtain ⟨now, rfl⟩ := dispatched_input hitem
  rcases pass_outcome hturns hordered hall with hempty | ⟨other, hother, hturn, htenants, hlast⟩
  · have hmem : item ∈ s.queue := by
      simp only [dispatched, Machine.transition] at hitem
      split at hitem
      · exact List.mem_of_find?_eq_some hitem
      · cases hitem
    rw [hempty] at hmem
    cases hmem
  · rw [hitem, Option.some.injEq] at hother
    subst hother
    rw [htenant] at hlast
    refine ⟨hwaits, ?_, ?_⟩
    · rw [hlast]
      exact RoundRobin.ahead_of_last hwaits hne
    · rw [hlast]
      exact fun h => hne (Option.some.inj h).symm

theorem AheadOf.step (hturns : router.order = .tenantRoundRobin) {s : SchedulerState}
    (hordered : s.Ordered) {call : SchedulerCall}
    (hall : AllAdmitted router ((schedulerMachine router).transition s call))
    (hkeeps : KeepsTurns (· = tenant) ((schedulerMachine router).transition s call))
    (hnot : ¬Dispatches waiting ((schedulerMachine router).transition s call))
    (h : AheadOf tenant waiting s) : AheadOf tenant waiting (schedulerMachine router call s).2 := by
  have hmove := queue_move router call s
  by_cases hpass : ∃ now, call = .scheduleNext now
  · obtain ⟨now, rfl⟩ := hpass
    rcases pass_outcome hturns hordered hall with hempty | ⟨item, hitem, hturn, htenants, hlast⟩
    · have hwaits := h.waits
      rw [SchedulerState.tenants, hempty] at hwaits
      cases hwaits
    · have hother : item.tenant ≠ waiting := by
        intro hsame
        exact hnot (by rw [Dispatches, hitem, Option.map_some, hsame])
      refine ⟨?_, ?_, ?_⟩
      · rw [htenants]
        exact (List.mem_erase_of_ne (Ne.symm hother)).2 h.waits
      · rw [htenants, hlast]
        exact h.ahead.kept hkeeps hturn hother
      · rw [hlast]
        exact fun hsame => hother (Option.some.inj hsame)
  · generalize hanswer : schedulerMachine router call s = answer at hmove ⊢
    obtain ⟨reply, s'⟩ := answer
    cases hmove with
    | kept _ _ _ same => exact h.same same
    | joined operation candidates policy _ fresh queue _ last =>
      have htenants : s'.tenants = s.tenants ++ [operation.val.tenantId] := by
        rw [SchedulerState.tenants, queue, List.map_append]
        rfl
      dsimp only
      refine ⟨?_, ?_, ?_⟩
      · rw [htenants]
        exact List.mem_append_left _ h.waits
      · rw [htenants, last]
        exact h.ahead.joined (fun hagain => hkeeps fresh hagain) h.waits h.notLast
      · rw [last]
        exact h.notLast
    | dispatched now => exact absurd ⟨now, rfl⟩ hpass

theorem AheadOf.not_dispatched (hturns : router.order = .tenantRoundRobin) {s : SchedulerState}
    (hordered : s.Ordered) {call : SchedulerCall}
    (hall : AllAdmitted router ((schedulerMachine router).transition s call))
    (hne : waiting ≠ tenant) (h : AheadOf tenant waiting s) :
    ¬Dispatches tenant ((schedulerMachine router).transition s call) := by
  intro hdispatches
  obtain ⟨item, hitem, htenant⟩ := Option.map_eq_some_iff.1 hdispatches
  obtain ⟨now, rfl⟩ := dispatched_input hitem
  rcases pass_outcome hturns hordered hall with hempty | ⟨other, hother, hturn, -, -⟩
  · have hwaits := h.waits
    rw [SchedulerState.tenants, hempty] at hwaits
    cases hwaits
  · rw [hitem, Option.some.injEq] at hother
    subst hother
    rw [htenant] at hturn
    exact RoundRobin.not_ahead_of_first hne hturn h.ahead

/-- In a run that keeps the turns, with every queued operation admissible at every pass, the
tenants are served in turns. -/
theorem tenants_fair (router : Scheduler) (hturns : router.order = .tenantRoundRobin)
    (limits : Dict CapacityScope CapacityLimit) (calls : List SchedulerCall)
    (hall : ∀ t ∈ (schedulerMachine router).history (.of limits) calls, AllAdmitted router t)
    (hkeeps : RunKeepsTurns ((schedulerMachine router).history (.of limits) calls)) :
    TenantsFair ((schedulerMachine router).history (.of limits) calls) := by
  intro earlier t between t' later tenant waiting hhistory hfirst hsecond _ hne hwaits
  by_contra hnever
  have hstart := SchedulerState.of_ordered limits
  have hI : ∀ call s, SchedulerState.Ordered s → (schedulerMachine router call s).2.Ordered :=
    fun call s h => h.step router call
  have hmem : t ∈ (schedulerMachine router).history (.of limits) calls ∧
      t' ∈ (schedulerMachine router).history (.of limits) calls ∧
      ∀ u ∈ between, u ∈ (schedulerMachine router).history (.of limits) calls := by
    rw [hhistory]
    refine ⟨by simp, by simp, fun u hu => ?_⟩
    simp [hu]
  have hahead : AheadOf tenant waiting t.after := by
    have hordered := Machine.history_invariant hI hstart hmem.1
    have hadmitted := hall t hmem.1
    have hwaiting := hwaits t (List.mem_cons_self ..)
    obtain ⟨s, call, rfl⟩ := Machine.history_transition hmem.1
    exact aheadOf_dispatched hturns hordered hadmitted hfirst hne hwaiting
  have hbefore : AheadOf tenant waiting t'.before := by
    refine Machine.history_between (A := fun u => AllAdmitted router u ∧
      KeepsTurns (· = tenant) u ∧ ¬Dispatches waiting u) hI ?_ hstart hhistory hahead ?_
    · intro call s hordered hstep h
      exact h.step hturns hordered hstep.1 hstep.2.1 hstep.2.2
    · intro u hu
      refine ⟨hall u (hmem.2.2 u hu), ?_, fun hdispatches => hnever ⟨u, hu, hdispatches⟩⟩
      -- the tenant was dispatched before, at the first of the two
      obtain ⟨before, rest, rfl⟩ := List.append_of_mem hu
      have hkept := hkeeps (earlier ++ t :: before) u (rest ++ t' :: later)
        (by rw [hhistory]; simp)
      refine hkept.mono fun other hother => ?_
      rw [hother]
      exact ⟨t, by simp, hfirst⟩
  have hordered := Machine.history_invariant hI hstart hmem.2.1
  have hadmitted := hall t' hmem.2.1
  obtain ⟨s, call, rfl⟩ := Machine.history_transition hmem.2.1
  replace hbefore : AheadOf tenant waiting s := hbefore
  exact hbefore.not_dispatched hturns hordered hadmitted hne hsecond

end Between

instance (tenant : String) (t : SchedulerTransition) : Decidable (Dispatches tenant t) :=
  inferInstanceAs (Decidable (_ = _))

instance (served : String → Prop) [DecidablePred served] : DecidablePred (KeepsTurns served) :=
    fun t => match t with
  | ⟨_, .enqueue .., _, _⟩ => inferInstanceAs (Decidable ((∀ item ∈ _, _) → _ → _))
  | ⟨_, .scheduleNext _, _, _⟩ => inferInstanceAs (Decidable (RoundRobin.KeepsTurns _ _))
  | ⟨_, .admission .., _, _⟩ => inferInstanceAs (Decidable True)
  | ⟨_, .complete _, _, _⟩ => inferInstanceAs (Decidable True)

namespace Sample

def tenantOperation (operationId tenantId : String) (h : ModelOperation.postInit
    ⟨operationId, tenantId, operationId, .bulk, modelWork, 5, 0, [], none, 0⟩ = .ok ()) :
    SchedulerCall :=
  .enqueue ⟨_, h⟩ [candidate] (some routingPolicy)

def turns : Scheduler := ⟨routing, fun text => text, .tenantRoundRobin⟩

def pass : SchedulerCall := .scheduleNext (time 0)

def threeTenants : List SchedulerCall :=
  [tenantOperation "a1" "a" (by decide +kernel), tenantOperation "a2" "a" (by decide +kernel),
    tenantOperation "c1" "c" (by decide +kernel), tenantOperation "b1" "b" (by decide +kernel)]

def afterPasses : Nat → SchedulerState
  | 0 => (schedulerMachine turns).run (.of .empty) threeTenants
  | n + 1 => (schedulerMachine turns pass (afterPasses n)).2

def passAt (n : Nat) : SchedulerTransition :=
  (schedulerMachine turns).transition (afterPasses n) pass

theorem threePasses : (schedulerMachine turns).history (.of .empty)
    (threeTenants ++ [pass, pass, pass]) =
    (schedulerMachine turns).history (.of .empty) threeTenants ++
      passAt 0 :: ([passAt 1] ++ passAt 2 :: []) :=
  Machine.history_append ..

/-- Tenants a and c wait; b joins after the first pass, ahead of both, and then a joins again. -/
def joiningTenants : List SchedulerCall :=
  [tenantOperation "a1" "a" (by decide +kernel), tenantOperation "c1" "c" (by decide +kernel),
    tenantOperation "a2" "a" (by decide +kernel), pass,
    tenantOperation "b1" "b" (by decide +kernel), pass, pass, pass]

/-- What the sample routing answers for a queued operation. -/
def admitted (s : RoutingState) (now : DateTime) (item : QueuedOperation) : Bool :=
  match ((ModelRouter.admitOperation routing item.operation item.candidates item.policy
    now).exec s).1 with
  | .ok (.admitted ..) => true
  | _ => false

def admitsAll (t : SchedulerTransition) : Bool :=
  match t.input with
  | .scheduleNext now => t.before.queue.all (admitted t.before.routing now)
  | _ => true

theorem allAdmitted {t : SchedulerTransition} (h : admitsAll t = true) : AllAdmitted turns t := by
  intro now hinput item hitem
  rw [admitsAll, hinput] at h
  have hadmitted := List.all_eq_true.1 h item hitem
  unfold admitted at hadmitted
  change ∃ candidate lease eligibility after,
    (ModelRouter.admitOperation routing item.operation item.candidates item.policy now).exec
      t.before.routing = (.ok (.admitted candidate lease eligibility), after)
  generalize (ModelRouter.admitOperation routing item.operation item.candidates item.policy
    now).exec t.before.routing = answer at hadmitted ⊢
  obtain ⟨result, after⟩ := answer
  split at hadmitted
  · next candidate lease eligibility heq =>
    exact ⟨candidate, lease, eligibility, after, Prod.ext heq rfl⟩
  · cases hadmitted

end Sample

theorem tenants_fair_sample :
    TenantsFair ((schedulerMachine Sample.turns).history (.of .empty) Sample.joiningTenants) := by
  have hall : (((schedulerMachine Sample.turns).history (.of .empty) Sample.joiningTenants).all
      Sample.admitsAll) = true := by decide +kernel
  have hkeeps : ((List.range Sample.joiningTenants.length).all fun n =>
      (((schedulerMachine Sample.turns).history
        (.of .empty) Sample.joiningTenants)[n]?).all fun t =>
        decide (KeepsTurns (fun tenant =>
          ∃ u ∈ ((schedulerMachine Sample.turns).history (.of .empty)
          Sample.joiningTenants).take n, Dispatches tenant u) t)) = true := by decide +kernel
  rw [List.all_eq_true] at hall hkeeps
  refine tenants_fair Sample.turns rfl .empty Sample.joiningTenants (fun t ht => ?_)
    fun earlier t later hsplit => ?_
  · exact Sample.allAdmitted (hall t ht)
  · have hlength : earlier.length < Sample.joiningTenants.length := by
      have hinputs := congrArg List.length (Machine.history_inputs (schedulerMachine Sample.turns)
        (.of .empty) Sample.joiningTenants)
      rw [hsplit] at hinputs
      simp at hinputs
      omega
    have hkept := hkeeps earlier.length (List.mem_range.2 hlength)
    rw [hsplit] at hkept
    simpa using hkept

/-- Tenants a, c and b wait. Once c has nothing left the turns start over, so a goes twice
while b waits. -/
theorem waiting_tenant_passed : ¬∀ (router : Scheduler) (limits : Dict CapacityScope CapacityLimit)
    (calls : List SchedulerCall), router.order = .tenantRoundRobin →
    (∀ t ∈ (schedulerMachine router).history (.of limits) calls, AllAdmitted router t) →
    TenantsFair ((schedulerMachine router).history (.of limits) calls) := by
  intro h
  have hall : (((schedulerMachine Sample.turns).history (.of .empty)
      (Sample.threeTenants ++ [Sample.pass, Sample.pass, Sample.pass])).all
      Sample.admitsAll) = true := by decide +kernel
  rw [List.all_eq_true] at hall
  have hfair := h Sample.turns .empty (Sample.threeTenants ++
    [Sample.pass, Sample.pass, Sample.pass])
    rfl fun t ht => Sample.allAdmitted (hall t ht)
  have hdispatched : Dispatches "a" (Sample.passAt 0) ∧ Dispatches "a" (Sample.passAt 2) ∧
      ¬Dispatches "a" (Sample.passAt 1) ∧ ¬Dispatches "b" (Sample.passAt 1) := by decide +kernel
  have hwaits : "b" ∈ (Sample.passAt 0).after.tenants ∧ "b" ∈ (Sample.passAt 1).after.tenants := by
    decide +kernel
  obtain ⟨u, hu, hdispatches⟩ := hfair _ _ _ _ _ "a" "b" Sample.threePasses hdispatched.1
    hdispatched.2.1 (fun u hu => List.mem_singleton.1 hu ▸ hdispatched.2.2.1) (by decide)
    (List.forall_mem_cons.2 ⟨hwaits.1, List.forall_mem_singleton.2 hwaits.2⟩)
  exact hdispatched.2.2.2 (List.mem_singleton.1 hu ▸ hdispatches)

end AiRetrieval
