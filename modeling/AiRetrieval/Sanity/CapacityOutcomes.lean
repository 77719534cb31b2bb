import AiRetrieval.Spec.Capacity
import Mathlib.Data.List.DropRight

/-! What an acquisition does to the capacity table: it prunes what has left the window and
then admits the first candidate whose scopes all have room, or none. -/

namespace AiRetrieval.HierarchicalCapacity

open SlidingWindows

/-- The admissions of a scope that the table still counts at a timestamp. -/
def recent (s : HierarchicalCapacity) (timestamp : Rat) (scope : CapacityScope) :
    List (Rat × Nat) :=
  SlidingWindows.prune Prod.fst cutoff timestamp (s.eventsOf scope)

/-- One more operation of `tokens` stays within every limit of the scope. -/
structure Room (s : HierarchicalCapacity) (timestamp : Rat) (tokens : Nat)
    (limit : CapacityLimit) (scope : CapacityScope) : Prop where
  concurrency : ∀ most, limit.val.concurrency = some most → s.activeCount scope < most
  requests : ∀ most, limit.val.requestsPerMinute = some most →
    (s.recent timestamp scope).length < most
  tokens : ∀ most, limit.val.tokensPerMinute = some most →
    ((s.recent timestamp scope).map Prod.snd).sum + tokens ≤ most

def Admissible (s : HierarchicalCapacity) (timestamp : Rat) (operation : ModelOperation)
    (candidate : ModelCandidate) : Prop :=
  ∀ scope ∈ scopesFor operation candidate, ∀ limit, s.limits.get? scope = some limit →
    s.Room timestamp operation.val.estimatedTotalTokens limit scope

structure Prunes (timestamp : Rat) (s s' : HierarchicalCapacity) : Prop where
  limits : s'.limits = s.limits
  active : ∀ scope, s'.activeCount scope = s.activeCount scope
  leases : s'.leases = s.leases
  events : ∀ scope, s'.eventsOf scope = s.eventsOf scope ∨
    s'.eventsOf scope = SlidingWindows.prune Prod.fst cutoff timestamp (s.eventsOf scope)

theorem scopesFor_nodup (operation : ModelOperation) (candidate : ModelCandidate) :
    (scopesFor operation candidate).Nodup := by
  apply List.Nodup.of_map fun scope : CapacityScope => scope.val.kind
  simp only [scopesFor, List.map_cons, List.map_nil]
  split <;> decide

section Prune

variable {s s' s'' : HierarchicalCapacity} {timestamp : Rat}

theorem limitedScopes_nodup (operation : ModelOperation) (candidate : ModelCandidate) :
    (s.limitedScopes operation candidate).Nodup := (scopesFor_nodup operation candidate).filter _

theorem mem_limitedScopes {operation : ModelOperation} {candidate : ModelCandidate}
    {scope : CapacityScope} : scope ∈ s.limitedScopes operation candidate ↔
      scope ∈ scopesFor operation candidate ∧ ∃ limit, s.limits.get? scope = some limit := by
  unfold limitedScopes Dict.contains
  rw [List.mem_filter, Option.isSome_iff_exists]

theorem Prunes.refl (s : HierarchicalCapacity) : Prunes timestamp s s :=
  ⟨rfl, fun _ => rfl, rfl, fun _ => .inl rfl⟩

theorem Prunes.trans (h : Prunes timestamp s s') (h' : Prunes timestamp s' s'') :
    Prunes timestamp s s'' := by
  refine ⟨h'.limits.trans h.limits, fun scope => (h'.active scope).trans (h.active scope),
    h'.leases.trans h.leases, fun scope => ?_⟩
  rcases h.events scope with he | he <;> rcases h'.events scope with he' | he'
  · exact .inl (he'.trans he)
  · exact .inr (he'.trans (by rw [he]))
  · exact .inr (he'.trans he)
  · refine .inr (he'.trans ?_)
    rw [he]
    exact List.dropWhile_idempotent ..

theorem eventsOf_prune {scopes : List CapacityScope} (hnodup : scopes.Nodup)
    (scope : CapacityScope) : (s.prune scopes timestamp).eventsOf scope =
      if scope ∈ scopes then SlidingWindows.prune Prod.fst cutoff timestamp (s.eventsOf scope)
      else s.eventsOf scope :=
  Dict.getDefault_updateAll [] _ hnodup s.events scope

theorem prune_prunes (s : HierarchicalCapacity) (timestamp : Rat) {scopes : List CapacityScope}
    (hnodup : scopes.Nodup) : Prunes timestamp s (s.prune scopes timestamp) := by
  refine ⟨rfl, fun _ => rfl, rfl, fun scope => ?_⟩
  rw [eventsOf_prune hnodup]
  split
  · exact .inr rfl
  · exact .inl rfl

theorem Prunes.recent (h : Prunes timestamp s s') (scope : CapacityScope) :
    s'.recent timestamp scope = s.recent timestamp scope := by
  unfold HierarchicalCapacity.recent
  rcases h.events scope with he | he
  · rw [he]
  · rw [he]
    exact List.dropWhile_idempotent ..

theorem Prunes.room_iff (h : Prunes timestamp s s') (tokens : Nat)
    (limit : CapacityLimit) (scope : CapacityScope) :
    s'.Room timestamp tokens limit scope ↔ s.Room timestamp tokens limit scope := by
  constructor <;> intro hroom
  · exact ⟨fun most hm => h.active scope ▸ hroom.concurrency most hm,
      fun most hm => h.recent scope ▸ hroom.requests most hm,
      fun most hm => h.recent scope ▸ hroom.tokens most hm⟩
  · exact ⟨fun most hm => (h.active scope).symm ▸ hroom.concurrency most hm,
      fun most hm => (h.recent scope).symm ▸ hroom.requests most hm,
      fun most hm => (h.recent scope).symm ▸ hroom.tokens most hm⟩

theorem Prunes.admissible_iff (h : Prunes timestamp s s')
    (operation : ModelOperation) (candidate : ModelCandidate) :
    s'.Admissible timestamp operation candidate ↔ s.Admissible timestamp operation candidate := by
  unfold Admissible
  rw [h.limits]
  exact forall₄_congr fun scope _ limit _ => h.room_iff _ limit scope

end Prune

section Fits

variable {s : HierarchicalCapacity} {timestamp : Rat}

theorem scopeFits_iff {scope : CapacityScope} {tokens : Nat} {limit : CapacityLimit}
    (hrecent : s.eventsOf scope = s.recent timestamp scope) :
    s.scopeFits tokens limit scope = true ↔ s.Room timestamp tokens limit scope := by
  unfold scopeFits
  simp only [hrecent, Bool.and_eq_true, Option.all_eq_true, decide_eq_true_eq]
  exact ⟨fun ⟨⟨h1, h2⟩, h3⟩ => ⟨h1, h2, h3⟩, fun h => ⟨⟨h.concurrency, h.requests⟩, h.tokens⟩⟩

theorem fits_iff (operation : ModelOperation) (candidate : ModelCandidate) :
    (s.prune (s.limitedScopes operation candidate) timestamp).fits
        (s.limitedScopes operation candidate) operation.val.estimatedTotalTokens = true ↔
      s.Admissible timestamp operation candidate := by
  have hnodup := limitedScopes_nodup (s := s) operation candidate
  have hprunes := prune_prunes s timestamp hnodup
  have hroom : ∀ scope ∈ s.limitedScopes operation candidate, ∀ limit,
      (s.prune (s.limitedScopes operation candidate) timestamp).scopeFits
          operation.val.estimatedTotalTokens limit scope = true ↔
        s.Room timestamp operation.val.estimatedTotalTokens limit scope := by
    intro scope hscope limit
    refine (scopeFits_iff ?_).trans (hprunes.room_iff ..)
    rw [hprunes.recent, eventsOf_prune hnodup, if_pos hscope]
    rfl
  unfold fits
  rw [List.all_eq_true]
  constructor
  · intro h scope hmem limit hlimit
    have hscope := mem_limitedScopes.2 ⟨hmem, limit, hlimit⟩
    have hfit := h scope hscope
    rw [hprunes.limits, hlimit] at hfit
    exact (hroom scope hscope limit).1 hfit
  · intro h scope hscope
    obtain ⟨hmem, limit, hlimit⟩ := mem_limitedScopes.1 hscope
    rw [hprunes.limits, hlimit]
    exact (hroom scope hscope limit).2 (h scope hmem limit hlimit)

end Fits

/-- What `acquire_first` does where the operation has no lease yet. -/
inductive AcquireOutcome (s : HierarchicalCapacity) (operation : ModelOperation)
    (candidates : List ModelCandidate) (timestamp : Rat) :
    Option CapacityAdmission → HierarchicalCapacity → Prop
  | refused (s' : HierarchicalCapacity) (prunes : Prunes timestamp s s')
    (full : ∀ candidate ∈ candidates, ¬s.Admissible timestamp operation candidate) :
    AcquireOutcome s operation candidates timestamp none s'
  | admitted (s' : HierarchicalCapacity) (candidate : ModelCandidate)
    (mem : candidate ∈ candidates) (prunes : Prunes timestamp s s')
    (pruned : ∀ scope ∈ s.limitedScopes operation candidate,
      s'.eventsOf scope = s.recent timestamp scope)
    (admissible : s.Admissible timestamp operation candidate) :
    AcquireOutcome s operation candidates timestamp
      (some ⟨candidate, ⟨operation.val.operationId, s.limitedScopes operation candidate⟩⟩)
      (s'.grant operation (s.limitedScopes operation candidate) timestamp)

theorem acquire_outcome {s : HierarchicalCapacity} (operation : ModelOperation)
    (candidates : List ModelCandidate) (timestamp : Rat) :
    AcquireOutcome s operation candidates timestamp
      (acquire operation timestamp candidates s).1
      (acquire operation timestamp candidates s).2 := by
  induction candidates generalizing s with
  | nil => exact .refused s (.refl s) fun candidate h => by cases h
  | cons candidate rest ih =>
    have hnodup := limitedScopes_nodup (s := s) operation candidate
    have hprunes := prune_prunes s timestamp hnodup
    rw [acquire]
    split
    · next hfit =>
      have hpruned : ∀ scope ∈ s.limitedScopes operation candidate,
          (s.prune (s.limitedScopes operation candidate) timestamp).eventsOf scope =
            s.recent timestamp scope := by
        intro scope hscope
        rw [eventsOf_prune hnodup, if_pos hscope]
        rfl
      exact .admitted _ candidate (List.mem_cons_self ..) hprunes hpruned
        ((fits_iff operation candidate).1 hfit)
    · next hfull =>
      have hout := ih (s := s.prune (s.limitedScopes operation candidate) timestamp)
      generalize acquire operation timestamp rest
        (s.prune (s.limitedScopes operation candidate) timestamp) = answer at hout ⊢
      obtain ⟨admission, after⟩ := answer
      cases hout with
      | refused _ prunes full =>
        refine .refused _ (hprunes.trans prunes) fun other hother => ?_
        rcases List.mem_cons.1 hother with rfl | hother
        · exact fun h => hfull ((fits_iff operation other).2 h)
        · exact fun h => full other hother ((hprunes.admissible_iff operation other).2 h)
      | admitted s' other mem prunes pruned admissible =>
        -- the limits of the pruned table are those of the table
        refine .admitted s' other (List.mem_cons_of_mem _ mem) (hprunes.trans prunes) ?_
          ((hprunes.admissible_iff operation other).1 admissible)
        intro scope hscope
        rw [pruned scope hscope, hprunes.recent]

/-- What `acquire_first` does: raise where its time has no timestamp, refuse an identifier that
is leased, or acquire. -/
inductive AcquireFirstOutcome (zone : LocalZone) (s : HierarchicalCapacity)
    (operation : ModelOperation) (candidates : List ModelCandidate) (moment : DateTime) :
    Except PyError (Option CapacityAdmission) → HierarchicalCapacity → Prop
  | unstamped (e : PyError) (stamp : moment.timestamp zone = .error e) :
    AcquireFirstOutcome zone s operation candidates moment (.error e) s
  | leased (timestamp : Rat) (stamp : moment.timestamp zone = .ok timestamp)
    (leased : s.leases.contains operation.val.operationId = true) :
    AcquireFirstOutcome zone s operation candidates moment (.ok none) s
  | acquired (timestamp : Rat) (admission : Option CapacityAdmission)
    (s' : HierarchicalCapacity) (stamp : moment.timestamp zone = .ok timestamp)
    (free : s.leases.get? operation.val.operationId = none)
    (answer : acquire operation timestamp candidates s = (admission, s'))
    (outcome : AcquireOutcome s operation candidates timestamp admission s') :
    AcquireFirstOutcome zone s operation candidates moment (.ok admission) s'

theorem acquireFirst_outcome (zone : LocalZone) (s : HierarchicalCapacity)
    (operation : ModelOperation) (candidates : List ModelCandidate) (moment : DateTime) :
    AcquireFirstOutcome zone s operation candidates moment
      (s.acquireFirst zone operation candidates moment).1
      (s.acquireFirst zone operation candidates moment).2 := by
  unfold acquireFirst
  cases hstamp : moment.timestamp zone with
  | error e => exact .unstamped e hstamp
  | ok timestamp =>
    dsimp only
    by_cases hleased : s.leases.contains operation.val.operationId = true
    · rw [if_pos hleased]
      exact .leased timestamp hstamp hleased
    · rw [if_neg hleased]
      have hfree : s.leases.get? operation.val.operationId = none := by
        simpa [Dict.contains] using hleased
      exact .acquired timestamp _ _ hstamp hfree rfl
        (acquire_outcome operation candidates timestamp)

end AiRetrieval.HierarchicalCapacity
