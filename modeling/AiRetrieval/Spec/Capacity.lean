import AiRetrieval.Library.BinaryFloats
import AiRetrieval.Library.Dictionaries
import AiRetrieval.Library.Histories
import AiRetrieval.Library.SlidingWindows
import AiRetrieval.Spec.RoutingRecords

/-! `HierarchicalCapacity` of `model_routing/capacity.py`. Its calls take its lock, so each is
one step of the table; an acquisition raises, before that, where its time has no timestamp. A
binary64 value stands as the rational number it is. -/

namespace AiRetrieval

/-- The binary64 value of an exact result. -/
def binary64 (x : Rat) : Rat := BinaryFloat.round 52 x

/-- The start of 1970, counted like an instant. -/
def DateTime.epoch : Int := 62135596800000000

/-- The seconds since the epoch of a whole second of the local clock; the local time zone has
none for the years the platform cannot represent. -/
abbrev LocalZone := Int → Except PyError Int

def DateTime.timestamp (zone : LocalZone) (t : DateTime) : Except PyError Rat :=
  if t.aware = true then .ok (binary64 ((t.instant - epoch : Int) / 1000000))
  else do
    let seconds ← zone (t.instant / 1000000)
    return binary64 (seconds + binary64 ((t.instant % 1000000 : Int) / 1000000))

structure HierarchicalCapacity where
  limits : Dict CapacityScope CapacityLimit
  active : Dict CapacityScope Int
  /-- The admissions that are still counted: their timestamp and their tokens. -/
  events : Dict CapacityScope (List (Rat × Nat))
  leases : Dict String CapacityLease

namespace HierarchicalCapacity

def windowSeconds : Rat := 60

/-- `timestamp - self._WINDOW_SECONDS`. -/
def cutoff (timestamp : Rat) : Rat := binary64 (timestamp - windowSeconds)

def of (limits : Dict CapacityScope CapacityLimit) : HierarchicalCapacity :=
  ⟨limits, .empty, .empty, .empty⟩

def scopesFor (operation : ModelOperation) (candidate : ModelCandidate) : List CapacityScope :=
  let executionKind :=
    if operation.val.path = .interactive then CapacityScopeKind.request else .job
  [⟨⟨.system, "system"⟩, rfl⟩,
    ⟨⟨executionKind, operation.val.scopeId⟩, require_of operation.texts.2.2⟩,
    ⟨⟨.tenant, operation.val.tenantId⟩, require_of operation.texts.2.1⟩,
    ⟨⟨.provider, candidate.val.providerId⟩, require_of candidate.texts.2⟩,
    ⟨⟨.model, candidate.val.modelId⟩, require_of candidate.texts.1⟩]

variable (s : HierarchicalCapacity)

def activeCount (scope : CapacityScope) : Int := s.active.getDefault 0 scope

/-- `self._events[scope]`. -/
def eventsOf (scope : CapacityScope) : List (Rat × Nat) := s.events.getDefault [] scope

def limitedScopes (operation : ModelOperation) (candidate : ModelCandidate) : List CapacityScope :=
  (scopesFor operation candidate).filter s.limits.contains

/-- `self._active[scope] += change` for the scopes. -/
def count (change : Int) (scopes : List CapacityScope) : HierarchicalCapacity :=
  { s with active := Dict.updateAll 0 (· + change) scopes s.active }

def prune (scopes : List CapacityScope) (timestamp : Rat) : HierarchicalCapacity :=
  { s with events :=
      Dict.updateAll [] (SlidingWindows.prune Prod.fst cutoff timestamp) scopes s.events }

/-- `self._events[scope].append(event)` for the scopes. -/
def record (event : Rat × Nat) (scopes : List CapacityScope) : HierarchicalCapacity :=
  { s with events := Dict.updateAll [] (· ++ [event]) scopes s.events }

/-- One pass of the loop of `_fits`. -/
def scopeFits (tokens : Nat) (limit : CapacityLimit) (scope : CapacityScope) : Bool :=
  let events := s.eventsOf scope
  (limit.val.concurrency.all fun (most : Nat) => s.activeCount scope < most) &&
    (limit.val.requestsPerMinute.all fun most => events.length < most) &&
    (limit.val.tokensPerMinute.all fun most => (events.map Prod.snd).sum + tokens ≤ most)

/-- `_fits`; it is asked of scopes that have a limit. -/
def fits (scopes : List CapacityScope) (tokens : Nat) : Bool :=
  scopes.all fun scope => (s.limits.get? scope).all fun limit => s.scopeFits tokens limit scope

/-- What an admission writes. -/
def grant (operation : ModelOperation) (scopes : List CapacityScope) (timestamp : Rat) :
    HierarchicalCapacity :=
  let counted := s.count 1 scopes
  let recorded := counted.record (timestamp, operation.val.estimatedTotalTokens) scopes
  { recorded with leases :=
    recorded.leases.insert operation.val.operationId ⟨operation.val.operationId, scopes⟩ }

/-- The loop of `acquire_first`. -/
def acquire (operation : ModelOperation) (timestamp : Rat) :
    List ModelCandidate → HierarchicalCapacity → Option CapacityAdmission × HierarchicalCapacity
  | [], s => (none, s)
  | candidate :: rest, s =>
    let scopes := s.limitedScopes operation candidate
    let pruned := s.prune scopes timestamp
    if pruned.fits scopes operation.val.estimatedTotalTokens then
      (some ⟨candidate, ⟨operation.val.operationId, scopes⟩⟩,
        pruned.grant operation scopes timestamp)
    else acquire operation timestamp rest pruned

def acquireFirst (zone : LocalZone) (operation : ModelOperation)
    (orderedCandidates : List ModelCandidate) (moment : DateTime) :
    Except PyError (Option CapacityAdmission) × HierarchicalCapacity :=
  match moment.timestamp zone with
  | .error error => (.error error, s)
  | .ok timestamp =>
    if s.leases.contains operation.val.operationId then (.ok none, s)
    else
      let (admission, after) := acquire operation timestamp orderedCandidates s
      (.ok admission, after)

def release (lease : CapacityLease) : Bool × HierarchicalCapacity :=
  if s.leases.get? lease.operationId = some lease then
    let counted := s.count (-1) lease.scopes
    (true, { counted with leases := counted.leases.erase lease.operationId })
  else (false, s)

end HierarchicalCapacity

inductive CapacityCall where
  | acquireFirst (operation : ModelOperation) (orderedCandidates : List ModelCandidate)
    (moment : DateTime)
  | release (lease : CapacityLease)

inductive CapacityReply where
  | admission (result : Except PyError (Option CapacityAdmission))
  | released (found : Bool)

def capacityMachine (zone : LocalZone) :
    Machine CapacityCall CapacityReply HierarchicalCapacity := fun call s =>
  match call with
  | .acquireFirst operation orderedCandidates moment =>
    let (result, after) := s.acquireFirst zone operation orderedCandidates moment
    (.admission result, after)
  | .release lease =>
    let (found, after) := s.release lease
    (.released found, after)

abbrev CapacityTransition := Transition CapacityCall CapacityReply HierarchicalCapacity

end AiRetrieval
