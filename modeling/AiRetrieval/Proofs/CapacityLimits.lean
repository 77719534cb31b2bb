import AiRetrieval.Proofs.LeaseExclusion
import AiRetrieval.Sanity.CapacityOutcomes
import AiRetrieval.Sanity.Timestamps
import Mathlib.Data.List.MinMax

/-! The capacity table never lets a limit be exceeded, over whole runs: concurrency at every
moment, requests and tokens in every window. -/

namespace AiRetrieval

open SlidingWindows HierarchicalCapacity

namespace HierarchicalCapacity

def outstanding (s : HierarchicalCapacity) (scope : CapacityScope) : List CapacityLease :=
  s.leases.values.filter fun lease => scope ∈ lease.scopes

/-- What an admission adds to the log of a scope: its entry, if its lease lists the scope. -/
def entryOn {α : Type} (lease : CapacityLease) (entry : α) (scope : CapacityScope) : List α :=
  if scope ∈ lease.scopes then [entry] else []

/-- An admission: its time, exactly and as a binary64 value, in seconds since the epoch, and its
tokens. -/
structure Admitted where
  moment : DateTime
  seconds : Rat
  timestamp : Rat
  tokens : Nat
  deriving DecidableEq

/-- What the table keeps of an admission. -/
def Admitted.event (a : Admitted) : Rat × Nat := (a.timestamp, a.tokens)

theorem map_entryOn {α β : Type} (f : α → β) (lease : CapacityLease) (entry : α)
    (scope : CapacityScope) :
    (entryOn lease entry scope).map f = entryOn lease (f entry) scope := by
  unfold entryOn
  split
  · rfl
  · rfl

variable (zone : LocalZone)

def admittedOn (scope : CapacityScope) (t : CapacityTransition) : List Admitted :=
  match t.input, t.reply with
  | .acquireFirst operation _ moment, .admission (.ok (some admission)) =>
    match moment.seconds zone, moment.timestamp zone with
    | .ok seconds, .ok timestamp =>
      entryOn admission.lease ⟨moment, seconds, timestamp, operation.val.estimatedTotalTokens⟩ scope
    | _, _ => []
  | _, _ => []

/-- The timestamps of the acquisitions of a run. -/
def timestamps (calls : List CapacityCall) : List Rat :=
  calls.filterMap fun call => match call with
    | .acquireFirst _ _ moment => (moment.timestamp zone).toOption
    | .release _ => none

/-- The table counts its leases and keeps of the admissions what can still be in a window;
`log` is every admission so far and `now` the last timestamp. -/
structure CapacityInvariant (log : CapacityScope → List (Rat × Nat)) (now : Rat)
    (s : HierarchicalCapacity) : Prop where
  keyed : ∀ id lease, s.leases.get? id = some lease →
    lease.operationId = id ∧ lease.scopes.Nodup
  active : ∀ scope, s.activeCount scope = (s.outstanding scope).length
  concurrency : ∀ scope limit most, s.limits.get? scope = some limit →
    limit.val.concurrency = some most → s.activeCount scope ≤ most
  ordered : ∀ scope, (log scope).Pairwise fun a b => a.1 ≤ b.1
  past : ∀ scope, ∀ e ∈ log scope, e.1 ≤ now
  pruned : ∀ scope, Pruned Prod.fst cutoff now (log scope) (s.eventsOf scope)
  requests : ∀ scope limit most, s.limits.get? scope = some limit →
    limit.val.requestsPerMinute = some most → Bounded Prod.fst cutoff (fun _ => 1) most (log scope)
  tokens : ∀ scope limit most, s.limits.get? scope = some limit →
    limit.val.tokensPerMinute = some most → Bounded Prod.fst cutoff Prod.snd most (log scope)

section Steps

variable {zone : LocalZone} {log : CapacityScope → List (Rat × Nat)} {now timestamp : Rat}
  {s s' : HierarchicalCapacity}

theorem CapacityInvariant.later (h : CapacityInvariant log now s) (hle : now ≤ timestamp) :
    CapacityInvariant log timestamp s where
  keyed := h.keyed
  active := h.active
  concurrency := h.concurrency
  ordered := h.ordered
  past scope e he := (h.past scope e he).trans hle
  pruned scope := (h.pruned scope).mono cutoff_mono hle
  requests := h.requests
  tokens := h.tokens

theorem CapacityInvariant.prunes (h : CapacityInvariant log timestamp s)
    (hp : Prunes timestamp s s') : CapacityInvariant log timestamp s' where
  keyed := by rw [hp.leases]; exact h.keyed
  active scope := by
    rw [hp.active, outstanding, hp.leases]
    exact h.active scope
  concurrency scope limit most := by
    rw [hp.limits, hp.active]
    exact h.concurrency scope limit most
  ordered := h.ordered
  past := h.past
  pruned scope := by
    rcases hp.events scope with he | he
    · rw [he]
      exact h.pruned scope
    · rw [he]
      exact (h.pruned scope).prune
  requests := by rw [hp.limits]; exact h.requests
  tokens := by rw [hp.limits]; exact h.tokens

theorem CapacityInvariant.recent_eq (h : CapacityInvariant log timestamp s)
    (scope : CapacityScope) :
    s.recent timestamp scope = (log scope).filter fun e => cutoff timestamp < e.1 := by
  exact (h.pruned scope).eq_filter (h.ordered scope)

theorem CapacityInvariant.outstanding_grant {operation : ModelOperation}
    {scopes : List CapacityScope} (hfree : s.leases.get? operation.val.operationId = none)
    (scope : CapacityScope) : (s.grant operation scopes timestamp).outstanding scope =
      s.outstanding scope ++
        if scope ∈ scopes then [⟨operation.val.operationId, scopes⟩] else [] := by
  have hvalues : (s.grant operation scopes timestamp).leases.values = s.leases.values ++
      [⟨operation.val.operationId, scopes⟩] := Dict.values_insert_of_get?_none _ hfree
  unfold outstanding
  rw [hvalues, List.filter_append]
  split
  · next hmem => rw [List.filter_cons, if_pos (by simpa using hmem), List.filter_nil]
  · next hmem => rw [List.filter_cons, if_neg (by simpa using hmem), List.filter_nil]

theorem activeCount_grant {scopes : List CapacityScope} (hnodup : scopes.Nodup)
    (operation : ModelOperation) (scope : CapacityScope) :
    (s.grant operation scopes timestamp).activeCount scope =
      if scope ∈ scopes then s.activeCount scope + 1 else s.activeCount scope :=
  Dict.getDefault_updateAll 0 (· + 1) hnodup s.active scope

theorem eventsOf_grant {scopes : List CapacityScope} (hnodup : scopes.Nodup)
    (operation : ModelOperation) (scope : CapacityScope) :
    (s.grant operation scopes timestamp).eventsOf scope =
      if scope ∈ scopes then
        s.eventsOf scope ++ [(timestamp, operation.val.estimatedTotalTokens)]
      else s.eventsOf scope :=
  Dict.getDefault_updateAll [] _ hnodup s.events scope

theorem CapacityInvariant.admitted (h : CapacityInvariant log timestamp s)
    {operation : ModelOperation} {scopes : List CapacityScope} (hnodup : scopes.Nodup)
    (hfree : s.leases.get? operation.val.operationId = none)
    (hroom : ∀ scope ∈ scopes, ∀ limit, s.limits.get? scope = some limit →
      s.Room timestamp operation.val.estimatedTotalTokens limit scope) :
    CapacityInvariant
      (fun scope => log scope ++
        if scope ∈ scopes then [(timestamp, operation.val.estimatedTotalTokens)] else [])
      timestamp (s.grant operation scopes timestamp) := by
  refine ⟨?_, ?_, ?_, ?_, ?_, ?_, ?_, ?_⟩
  · intro id lease hlease
    replace hlease : (s.leases.insert operation.val.operationId
      ⟨operation.val.operationId, scopes⟩).get? id = some lease := hlease
    rw [Dict.get?_insert] at hlease
    split at hlease
    · next hid =>
      cases hlease
      exact ⟨hid.symm, hnodup⟩
    · exact h.keyed id lease hlease
  · intro scope
    have hactive := h.active scope
    rw [activeCount_grant hnodup, outstanding_grant hfree, List.length_append]
    split
    · rw [hactive]
      rfl
    · rw [hactive]
      rfl
  · intro scope limit most hlimit hmost
    rw [activeCount_grant hnodup]
    split
    · next hmem =>
      have hlt := (hroom scope hmem limit hlimit).concurrency most hmost
      omega
    · exact h.concurrency scope limit most hlimit hmost
  · intro scope
    split
    · rw [List.pairwise_append]
      refine ⟨h.ordered scope, List.pairwise_singleton _ _, fun a ha b hb => ?_⟩
      rw [List.mem_singleton] at hb
      subst hb
      exact h.past scope a ha
    · rw [List.append_nil]
      exact h.ordered scope
  · intro scope e he
    rw [List.mem_append] at he
    rcases he with he | he
    · exact h.past scope e he
    · split at he
      · rw [List.mem_singleton] at he
        subst he
        exact le_refl _
      · cases he
  · intro scope
    rw [eventsOf_grant hnodup]
    split
    · exact (h.pruned scope).append _
    · rw [List.append_nil]
      exact h.pruned scope
  · intro scope limit most hlimit hmost
    have hbounded := h.requests scope limit most hlimit hmost
    split
    · next hmem =>
      apply hbounded.append cutoff_mono
      have hfits := (hroom scope hmem limit hlimit).requests most hmost
      rw [h.recent_eq] at hfits
      simp only [List.map_const', List.sum_replicate_nat, Nat.mul_one]
      omega
    · rw [List.append_nil]
      exact hbounded
  · intro scope limit most hlimit hmost
    have hbounded := h.tokens scope limit most hlimit hmost
    split
    · next hmem =>
      apply hbounded.append cutoff_mono
      have hfits := (hroom scope hmem limit hlimit).tokens most hmost
      rwa [h.recent_eq] at hfits
    · rw [List.append_nil]
      exact hbounded

/-- Granting what the table admits keeps the invariant. -/
theorem CapacityInvariant.granted (h : CapacityInvariant log timestamp s)
    (hprunes : Prunes timestamp s s') {operation : ModelOperation} {candidate : ModelCandidate}
    (hfree : s.leases.get? operation.val.operationId = none)
    (hadmissible : s.Admissible timestamp operation candidate) :
    CapacityInvariant (fun scope => log scope ++
        entryOn ⟨operation.val.operationId, s.limitedScopes operation candidate⟩
          (timestamp, operation.val.estimatedTotalTokens) scope)
      timestamp (s'.grant operation (s.limitedScopes operation candidate) timestamp) := by
  refine (h.prunes hprunes).admitted (limitedScopes_nodup operation candidate) ?_ ?_
  · rw [hprunes.leases]
    exact hfree
  · intro scope hscope limit hlimit
    rw [hprunes.limits] at hlimit
    exact (hprunes.room_iff _ limit scope).2
      (hadmissible scope (mem_limitedScopes.1 hscope).1 limit hlimit)

/-- A release gives back its own lease and touches no event. -/
theorem CapacityInvariant.released (h : CapacityInvariant log now s) (lease : CapacityLease) :
    CapacityInvariant log now (s.release lease).2 := by
  unfold release
  split
  · next hlease =>
    have hnodup := (h.keyed _ _ hlease).2
    have hcount : ∀ scope, (s.count (-1) lease.scopes).activeCount scope =
        if scope ∈ lease.scopes then s.activeCount scope + -1 else s.activeCount scope :=
      fun scope => Dict.getDefault_updateAll 0 (· + -1) hnodup s.active scope
    refine ⟨?_, ?_, ?_, h.ordered, h.past, h.pruned, h.requests, h.tokens⟩
    · intro id other hother
      replace hother : (s.leases.erase lease.operationId).get? id = some other := hother
      rw [Dict.get?_erase] at hother
      split at hother
      · cases hother
      · exact h.keyed id other hother
    · intro scope
      have hactive := h.active scope
      have herase := Dict.countP_values_erase hlease fun other => decide (scope ∈ other.scopes)
      rw [List.countP_eq_length_filter, List.countP_eq_length_filter] at herase
      change (s.count (-1) lease.scopes).activeCount scope =
        (((s.leases.erase lease.operationId).values.filter
          fun other => scope ∈ other.scopes).length : Int)
      rw [hcount, hactive]
      unfold outstanding
      by_cases hmem : scope ∈ lease.scopes
      · simp only [hmem, decide_true, if_true] at herase ⊢
        omega
      · simp only [hmem, decide_false, Bool.false_eq_true, if_false] at herase ⊢
        omega
    · intro scope limit most hlimit hmost
      have hle := h.concurrency scope limit most hlimit hmost
      change (s.count (-1) lease.scopes).activeCount scope ≤ most
      rw [hcount]
      split
      · omega
      · exact hle
  · exact h

/-- One call keeps the invariant, with the log taking what it admits. -/
theorem CapacityInvariant.acquired (h : CapacityInvariant log now s) (operation : ModelOperation)
    (candidates : List ModelCandidate) (moment : DateTime)
    (hle : ∀ timestamp, moment.timestamp zone = .ok timestamp → now ≤ timestamp) :
    CapacityInvariant (fun scope => log scope ++ (admittedOn zone scope
        ((capacityMachine zone).transition s (.acquireFirst operation candidates moment))).map
          Admitted.event)
      (((moment.timestamp zone).toOption).getD now)
      (capacityMachine zone (.acquireFirst operation candidates moment) s).2 := by
  simp only [capacityMachine, Machine.transition]
  have hout := acquireFirst_outcome zone s operation candidates moment
  generalize s.acquireFirst zone operation candidates moment = answer at hout ⊢
  obtain ⟨result, after⟩ := answer
  cases hout with
  | unstamped e stamp =>
    simp only [admittedOn, List.map_nil, List.append_nil, stamp]
    exact h
  | leased timestamp stamp leased =>
    simp only [admittedOn, List.map_nil, List.append_nil, stamp]
    exact h.later (hle timestamp stamp)
  | acquired timestamp admission _ stamp free _ outcome =>
    have hnow := h.later (hle timestamp stamp)
    obtain ⟨seconds, hseconds⟩ := DateTime.seconds_of_timestamp stamp
    rw [stamp]
    cases outcome with
    | refused _ prunes _ =>
      simp only [admittedOn, List.map_nil, List.append_nil]
      exact hnow.prunes prunes
    | admitted s' candidate mem prunes pruned admissible =>
      simp only [admittedOn, hseconds, stamp, map_entryOn]
      exact hnow.granted prunes free admissible

end Steps

variable {zone : LocalZone}

theorem limits_step (call : CapacityCall) (s : HierarchicalCapacity) :
    (capacityMachine zone call s).2.limits = s.limits := by
  cases call with
  | acquireFirst operation candidates moment =>
    simp only [capacityMachine]
    have hout := acquireFirst_outcome zone s operation candidates moment
    generalize s.acquireFirst zone operation candidates moment = answer at hout ⊢
    obtain ⟨result, after⟩ := answer
    cases hout with
    | unstamped e stamp => rfl
    | leased timestamp stamp leased => rfl
    | acquired timestamp admission _ stamp free _ outcome =>
      cases outcome with
      | refused _ prunes _ => exact prunes.limits
      | admitted s' candidate mem prunes pruned admissible => exact prunes.limits
  | release lease =>
    simp only [capacityMachine, release]
    split
    · rfl
    · rfl

/-- A run at non-decreasing times keeps the invariant, with every admission in the log. -/
theorem CapacityInvariant.run {log : CapacityScope → List (Rat × Nat)} {now : Rat}
    {s : HierarchicalCapacity} (h : CapacityInvariant log now s) (calls : List CapacityCall)
    (hafter : ∀ timestamp ∈ timestamps zone calls, now ≤ timestamp)
    (hmono : (timestamps zone calls).Pairwise (· ≤ ·)) :
    (∃ later, CapacityInvariant
      (fun scope => log scope ++
        (((capacityMachine zone).history s calls).flatMap (admittedOn zone scope)).map
          Admitted.event)
      later ((capacityMachine zone).run s calls)) ∧
    ((capacityMachine zone).run s calls).limits = s.limits := by
  induction calls generalizing log now s with
  | nil => exact ⟨⟨now, by simpa using h⟩, rfl⟩
  | cons call rest ih =>
    have hlimits := @limits_step zone call s
    cases call with
    | acquireFirst operation candidates moment =>
      have htimes : timestamps zone (.acquireFirst operation candidates moment :: rest) =
          ((moment.timestamp zone).toOption).toList ++ timestamps zone rest := by
        unfold timestamps
        rw [List.filterMap_cons]
        dsimp only
        cases moment.timestamp zone <;> rfl
      rw [htimes, List.pairwise_append] at hmono
      simp only [htimes, List.mem_append] at hafter
      have hnow (timestamp : Rat) (hstamp : moment.timestamp zone = .ok timestamp) :
          now ≤ timestamp := hafter timestamp
            (.inl (by rw [hstamp]; exact List.mem_singleton.2 rfl))
      have hnext := h.acquired operation candidates moment hnow
      obtain ⟨⟨later, hrun⟩, hkept⟩ := ih hnext (fun timestamp hmem => by
        cases hstamp : moment.timestamp zone with
        | error e => exact hafter timestamp (.inr hmem)
        | ok first =>
          refine hmono.2.2 first ?_ timestamp hmem
          rw [hstamp]
          exact List.mem_singleton.2 rfl) hmono.2.1
      refine ⟨⟨later, ?_⟩, hkept.trans hlimits⟩
      simpa only [Machine.history_cons, Machine.run_cons, List.flatMap_cons, List.map_append,
        List.append_assoc] using hrun
    | release lease =>
      obtain ⟨⟨later, hrun⟩, hkept⟩ := ih (h.released lease) hafter hmono
      exact ⟨⟨later, hrun⟩, hkept.trans hlimits⟩

/-- A new table has counted nothing and admitted nothing. -/
theorem start_invariant (limits : Dict CapacityScope CapacityLimit) (now : Rat) :
    CapacityInvariant (fun _ => []) now (.of limits) where
  keyed _ _ h := by cases h
  active _ := rfl
  concurrency _ _ _ _ _ := Int.natCast_nonneg _
  ordered _ := List.Pairwise.nil
  past _ _ h := by cases h
  pruned _ := Pruned.refl now []
  requests _ _ _ _ _ _ := Nat.zero_le _
  tokens _ _ _ _ _ _ := Nat.zero_le _

theorem refusal_counts {s : HierarchicalCapacity} {operation : ModelOperation}
    {candidates : List ModelCandidate} {moment : DateTime}
    (h : ∀ admission, (capacityMachine zone (.acquireFirst operation candidates moment) s).1 ≠
      .admission (.ok (some admission))) (scope : CapacityScope) :
    (capacityMachine zone (.acquireFirst operation candidates moment) s).2.activeCount scope =
        s.activeCount scope ∧
      (capacityMachine zone (.acquireFirst operation candidates moment) s).2.eventsOf scope <:+
        s.eventsOf scope := by
  simp only [capacityMachine] at h ⊢
  have hout := acquireFirst_outcome zone s operation candidates moment
  generalize s.acquireFirst zone operation candidates moment = answer at hout h ⊢
  obtain ⟨result, after⟩ := answer
  cases hout with
  | unstamped e stamp => exact ⟨rfl, List.suffix_refl _⟩
  | leased timestamp stamp leased => exact ⟨rfl, List.suffix_refl _⟩
  | acquired timestamp admission _ stamp free _ outcome =>
    cases outcome with
    | refused _ prunes _ =>
      refine ⟨prunes.active scope, ?_⟩
      rcases prunes.events scope with he | he
      · simp only [he, List.suffix_refl]
      · rw [he]
        exact List.dropWhile_suffix _
    | admitted s' candidate mem prunes pruned admissible => exact absurd rfl (h _)

end HierarchicalCapacity

section Admissions

variable (zone : LocalZone)

def admissions (limits : Dict CapacityScope CapacityLimit) (calls : List CapacityCall)
    (scope : CapacityScope) : List Admitted :=
  ((capacityMachine zone).history (.of limits) calls).flatMap (admittedOn zone scope)

/-- Admissions number and weigh no more than a minute of the limit allows. -/
structure WithinRates (limit : CapacityLimit) (admitted : List Admitted) : Prop where
  requests : ∀ most, limit.val.requestsPerMinute = some most → admitted.length ≤ most
  tokens : ∀ most, limit.val.tokensPerMinute = some most → (admitted.map (·.tokens)).sum ≤ most

/-- What the capacity table promises of a run: active counts are the leases that are out and
within the limits, every binary64 window of the admissions is within the limits, so is every
minute of times of these centuries (1834 to 2105) and, of any dates, every minute less 46
microseconds, and an acquisition that is refused or raises counts nothing. -/
structure CapacityKept (limits : Dict CapacityScope CapacityLimit) (calls : List CapacityCall) :
    Prop where
  active : ∀ scope, ((capacityMachine zone).run (.of limits) calls).activeCount scope =
    (((capacityMachine zone).run (.of limits) calls).outstanding scope).length
  nonneg : ∀ scope, 0 ≤ ((capacityMachine zone).run (.of limits) calls).activeCount scope
  concurrency : ∀ scope limit most, limits.get? scope = some limit →
    limit.val.concurrency = some most →
      ((capacityMachine zone).run (.of limits) calls).activeCount scope ≤ most
  windows : ∀ scope limit, limits.get? scope = some limit → ∀ moment : Rat,
    WithinRates limit ((admissions zone limits calls scope).filter fun a =>
      cutoff moment < a.timestamp ∧ a.timestamp ≤ moment)
  minutes : ∀ scope limit, limits.get? scope = some limit →
    (∀ a ∈ admissions zone limits calls scope, Within 32 a.seconds) → ∀ moment : Rat,
    WithinRates limit ((admissions zone limits calls scope).filter fun a =>
      moment - 60 < a.seconds ∧ a.seconds ≤ moment)
  shortened : ∀ scope limit, limits.get? scope = some limit →
    (∀ a ∈ admissions zone limits calls scope, Within 38 a.seconds) → ∀ moment : Rat,
    WithinRates limit ((admissions zone limits calls scope).filter fun a =>
      moment - 60 + 46 / 1000000 ≤ a.seconds ∧ a.seconds ≤ moment)
  refusals : ∀ t ∈ (capacityMachine zone).history (.of limits) calls,
    ∀ operation candidates moment, t.input = .acquireFirst operation candidates moment →
      (∀ admission, t.reply ≠ .admission (.ok (some admission))) →
      ∀ scope, t.after.activeCount scope = t.before.activeCount scope ∧
        t.after.eventsOf scope <:+ t.before.eventsOf scope

variable {zone} {limits : Dict CapacityScope CapacityLimit} {calls : List CapacityCall}
  {scope : CapacityScope} {limit : CapacityLimit}

theorem mem_admissions {a : Admitted} (h : a ∈ admissions zone limits calls scope) :
    a.moment.seconds zone = .ok a.seconds ∧ a.moment.timestamp zone = .ok a.timestamp := by
  obtain ⟨t, -, ha⟩ := List.mem_flatMap.1 h
  unfold admittedOn at ha
  split at ha
  · split at ha
    · next hseconds htimestamp =>
      unfold entryOn at ha
      split at ha
      · rw [List.mem_singleton.1 ha]
        exact ⟨hseconds, htimestamp⟩
      · cases ha
    · cases ha
  · cases ha

/-- In every window of the table the admissions of a run are within the limit. -/
theorem HierarchicalCapacity.CapacityInvariant.withinRates {later : Rat} {s : HierarchicalCapacity}
    (h : CapacityInvariant (fun scope => (admissions zone limits calls scope).map Admitted.event)
      later s) (hlimit : s.limits.get? scope = some limit) (moment : Rat) :
    WithinRates limit ((admissions zone limits calls scope).filter fun a =>
      cutoff moment < a.timestamp ∧ a.timestamp ≤ moment) := by
  have hwindow (weight : Rat × Nat → Nat) :
      (window Prod.fst cutoff moment ((admissions zone limits calls scope).map
        Admitted.event)).map weight =
      ((admissions zone limits calls scope).filter fun a =>
        cutoff moment < a.timestamp ∧ a.timestamp ≤ moment).map (weight ∘ Admitted.event) := by
    unfold window
    rw [List.filter_map, List.map_map]
    rfl
  constructor
  · intro most hmost
    have hbounded := h.requests scope limit most hlimit hmost moment
    rw [hwindow] at hbounded
    simp only [Function.comp_def, List.map_const', List.sum_replicate_nat, Nat.mul_one]
      at hbounded
    exact hbounded
  · intro most hmost
    have hbounded := h.tokens scope limit most hlimit hmost moment
    rw [hwindow] at hbounded
    exact hbounded

theorem WithinRates.sublist {l l' : List Admitted} (h : WithinRates limit l')
    (hsub : l.Sublist l') : WithinRates limit l where
  requests most hmost := hsub.length_le.trans (h.requests most hmost)
  tokens most hmost := ((hsub.map _).sum_le_sum fun _ _ => Nat.zero_le _).trans
    (h.tokens most hmost)

theorem WithinRates.nil (limit : CapacityLimit) : WithinRates limit [] :=
  ⟨fun _ _ => Nat.zero_le _, fun _ _ => Nat.zero_le _⟩

/-- Admissions whose times are so close that none is before another's window are within the
limit. -/
theorem WithinRates.of_windows {l : List Admitted} {p : Admitted → Bool}
    (hwindows : ∀ moment : Rat, WithinRates limit (l.filter fun a =>
      cutoff moment < a.timestamp ∧ a.timestamp ≤ moment))
    (hclose : ∀ m ∈ l, p m = true → ∀ a ∈ l, p a = true → cutoff m.timestamp < a.timestamp) :
    WithinRates limit (l.filter p) := by
  cases hmax : (l.filter p).argmax (·.timestamp) with
  | none => rw [List.argmax_eq_none.1 hmax]; exact .nil limit
  | some m =>
    obtain ⟨hm, hpm⟩ := List.mem_filter.1 (List.argmax_mem hmax)
    refine (hwindows m.timestamp).sublist (filter_sublist_of_imp fun a ha hpa => ?_)
    have hle := List.le_of_mem_argmax (List.mem_filter.2 ⟨ha, hpa⟩) hmax
    simpa using ⟨hclose m hm hpm a ha hpa, hle⟩

theorem close_of_within {p : ℕ} (hp : p ≤ 53) {gap : Rat} (hgap : 3 * stampError p ≤ gap)
    (hwithin : ∀ a ∈ admissions zone limits calls scope, Within p a.seconds)
    {m : Admitted} (hm : m ∈ admissions zone limits calls scope)
    {a : Admitted} (ha : a ∈ admissions zone limits calls scope)
    (h : m.seconds - 60 + gap ≤ a.seconds) : cutoff m.timestamp < a.timestamp := by
  obtain ⟨hmseconds, hmstamp⟩ := mem_admissions hm
  obtain ⟨haseconds, hastamp⟩ := mem_admissions ha
  exact cutoff_lt (DateTime.abs_timestamp_sub_le haseconds hastamp (hwithin a ha))
    (DateTime.abs_timestamp_sub_le hmseconds hmstamp (hwithin m hm)) (hwithin m hm) hgap hp h

theorem exists_before (hmono : (timestamps zone calls).Pairwise (· ≤ ·)) :
    ∃ now, ∀ timestamp ∈ timestamps zone calls, now ≤ timestamp := by
  cases htimes : timestamps zone calls with
  | nil => exact ⟨0, fun _ h => by cases h⟩
  | cons first rest =>
    rw [htimes, List.pairwise_cons] at hmono
    refine ⟨first, fun timestamp hmem => ?_⟩
    rcases List.mem_cons.1 hmem with rfl | hmem
    · exact le_refl _
    · exact hmono.1 timestamp hmem

end Admissions

/-- In every run at non-decreasing timestamps the table keeps its promise. -/
theorem capacity_kept (zone : LocalZone) (limits : Dict CapacityScope CapacityLimit)
    (calls : List CapacityCall) (hmono : (timestamps zone calls).Pairwise (· ≤ ·)) :
    CapacityKept zone limits calls := by
  obtain ⟨now, hafter⟩ := exists_before hmono
  obtain ⟨⟨later, hrun⟩, hlimits⟩ := (start_invariant limits now).run calls hafter hmono
  simp only [List.nil_append] at hrun
  have hwindows : ∀ scope limit, limits.get? scope = some limit → ∀ moment : Rat,
      WithinRates limit ((admissions zone limits calls scope).filter fun a =>
        cutoff moment < a.timestamp ∧ a.timestamp ≤ moment) :=
    fun scope limit hlimit => hrun.withinRates (by rw [hlimits]; exact hlimit)
  refine ⟨hrun.active, ?_, ?_, hwindows, ?_, ?_, ?_⟩
  · intro scope
    rw [hrun.active]
    exact Int.natCast_nonneg _
  · intro scope limit most hlimit
    apply hrun.concurrency scope limit most
    rw [hlimits]
    exact hlimit
  · intro scope limit hlimit hwithin moment
    refine .of_windows (hwindows scope limit hlimit) fun m hm hpm a ha hpa => ?_
    simp only [decide_eq_true_eq] at hpm hpa
    have hgap : 3 * stampError 32 ≤ 1 / 1000000 := by norm_num [stampError]
    apply close_of_within (by norm_num) hgap hwithin hm ha
    exact microsecond_le (DateTime.seconds_whole (mem_admissions ha).1)
      (DateTime.seconds_whole (mem_admissions hm).1) (by linarith [hpm.2, hpa.1])
  · intro scope limit hlimit hwithin moment
    refine .of_windows (hwindows scope limit hlimit) fun m hm hpm a ha hpa => ?_
    simp only [decide_eq_true_eq] at hpm hpa
    have hgap : 3 * stampError 38 ≤ 46 / 1000000 := by norm_num [stampError]
    apply close_of_within (by norm_num) hgap hwithin hm ha
    linarith [hpm.2, hpa.1]
  · intro t ht operation candidates moment hin hreply scope
    obtain ⟨s, call, rfl⟩ := Machine.history_transition ht
    obtain rfl : call = .acquireFirst operation candidates moment := hin
    exact refusal_counts hreply scope

namespace Sample

theorem systemScope_passes : CapacityScope.postInit ⟨.system, "system"⟩ = .ok () := rfl

def systemScope : CapacityScope := ⟨_, systemScope_passes⟩

def capacityLimits : Dict CapacityScope CapacityLimit :=
  Dict.empty.insert systemScope ⟨{ concurrency := some 1, requestsPerMinute := some 2 }, rfl⟩

def modelWork : ModelWork := ⟨{
  taskType := "classify"
  payloadReference := "payload-1"
  inputIds := []
  requiredCapabilities := .singleton "labels" }, by decide +kernel⟩

def operationFor (operationId scopeId : String) (h : ModelOperation.postInit
    ⟨operationId, "tenant-a", scopeId, .interactive, modelWork, 5, 0, [], none, 0⟩ = .ok ()) :
    ModelOperation := ⟨_, h⟩

def candidate : ModelCandidate := ⟨{
  modelId := "model"
  providerId := "provider-a"
  capabilities := .singleton "labels"
  allowedDataClasses := .none
  costEstimate := 1
  priority := 0
  predictedLatencyMs := 10
  qualityScore := 1 }, by decide +kernel⟩

def firstOperation : ModelOperation := operationFor "op-1" "request-a" (by decide +kernel)

/-- A local clock in UTC. -/
def localZone : LocalZone := fun seconds => .ok (seconds - 62135596800)

def secondOperation : ModelOperation := operationFor "op-2" "request-b" (by decide +kernel)

def acquisitions : List CapacityCall :=
  [.acquireFirst firstOperation [candidate] (time 0),
    .acquireFirst secondOperation [candidate] (time 1)]

def oneRequest : CapacityLimit := ⟨{ requestsPerMinute := some 1 }, rfl⟩

def requestLimits : Dict CapacityScope CapacityLimit := Dict.empty.insert systemScope oneRequest

/-- Two requests two microseconds less than a minute apart. -/
def closeRequests : List CapacityCall :=
  [.acquireFirst firstOperation [candidate] (time 0),
    .acquireFirst secondOperation [candidate] (time 59999998)]

end Sample

theorem capacity_kept_sample :
    CapacityKept Sample.localZone Sample.capacityLimits Sample.acquisitions :=
  capacity_kept Sample.localZone Sample.capacityLimits Sample.acquisitions (by decide +kernel)

/-- In the year 1 the places of a timestamp are over seven microseconds: two requests of one
minute are both admitted. -/
theorem minute_overrun : ¬∀ (zone : LocalZone) (limits : Dict CapacityScope CapacityLimit)
    (calls : List CapacityCall), (timestamps zone calls).Pairwise (· ≤ ·) →
    ∀ scope limit, limits.get? scope = some limit → ∀ moment : Rat,
      WithinRates limit ((admissions zone limits calls scope).filter fun a =>
        moment - 60 < a.seconds ∧ a.seconds ≤ moment) := by
  intro h
  have hminute := h Sample.localZone Sample.requestLimits Sample.closeRequests (by decide +kernel)
    Sample.systemScope Sample.oneRequest rfl (59999998 / 1000000 - 62135596800)
  exact absurd (hminute.requests 1 rfl) (by decide +kernel)

end AiRetrieval
