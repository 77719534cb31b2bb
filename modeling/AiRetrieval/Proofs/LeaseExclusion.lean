import AiRetrieval.Library.Leases
import AiRetrieval.Sanity.StoreGrowth

/-! The store's items refine leases: every call on an item is a lease step of its
caller. Mutual exclusion of the store follows from that of leases. -/

namespace AiRetrieval

open WorkRepository Program

namespace WorkRepository

def leaseOf (s : WorkRepository) (key : Key) : Option (Lease String DateTime) :=
  (s.items.get? key).bind fun item =>
    match item.val.leaseOwner, item.val.leaseExpiresAt with
    | some owner, some expiry => some ⟨owner, expiry⟩
    | _, _ => none

def GivesUp (s : WorkRepository) (key : Key) (owner : String) : StoreCall → Prop
  | .checkpoint key' owner' stage outcome now ref => key' = key ∧ owner' = owner ∧
    (∀ c ∈ s.checkpointsOf key, c.val.completedStage ≠ stage) ∧
    ∃ record, (storeMachine (.checkpoint key' owner' stage outcome now ref) s).1 =
      .ok (.checkpoint record)
  | .terminalize key' owner' state code details now ref => key' = key ∧ owner' = owner ∧
    ∃ record, (storeMachine (.terminalize key' owner' state code details now ref) s).1 =
      .ok (.terminal record)
  | _ => False

/-- `owner`'s call renews the lease to expiry `e`. -/
def ExtendsTo (s : WorkRepository) (key : Key) (owner : String) (e : DateTime) :
    StoreCall → Prop
  | .renew key' owner' now d => key' = key ∧ owner' = owner ∧
    ∃ item, (storeMachine (.renew key' owner' now d) s).1 = .ok (.item item) ∧
      item.val.leaseExpiresAt = some e
  | _ => False

variable {s s' : WorkRepository} {key : Key} {owner : String} {now : DateTime}

theorem Owned.leaseOf {item : WorkItemRecord} (h : s.Owned key owner now item) :
    ∃ expiry, item.val.leaseExpiresAt = some expiry ∧ now < expiry ∧
      s.leaseOf key = some ⟨owner, expiry⟩ := by
  obtain ⟨expiry, he, hlt⟩ := h.unexpired
  exact ⟨expiry, he, hlt, by simp [WorkRepository.leaseOf, h.found, h.owner_eq, he]⟩

theorem Replaces.leaseOf {current next : WorkItemRecord} (h : Replaces s s' key current next) :
    s'.leaseOf key = match next.val.leaseOwner, next.val.leaseExpiresAt with
      | some owner, some expiry => some ⟨owner, expiry⟩
      | _, _ => none := by
  simp [WorkRepository.leaseOf, h.get?]

theorem leaseOf_eq_some {l : Lease String DateTime} (h : s.leaseOf key = some l) :
    ∃ item, s.items.get? key = some item ∧ item.val.state = .inProgress ∧
      item.val.leaseOwner = some l.owner ∧ item.val.leaseExpiresAt = some l.expiry := by
  unfold WorkRepository.leaseOf at h
  obtain ⟨item, hi, h⟩ := Option.bind_eq_some_iff.1 h
  refine ⟨item, hi, ?_⟩
  have hlease := item.lease_iff
  split at h
  · next owner expiry ho he =>
    cases h
    exact ⟨hlease.1.1 (by simp [ho]), ho, he⟩
  · cases h

/-- What a call by `owner` can do to the lease on an item: nothing, take a lease that is
not live, renew its own live one, or give that up. -/
inductive LeaseMove (s : WorkRepository) (key : Key) (owner : String) (now : DateTime)
    (extendsTo : DateTime → Prop) (gaveUp : Prop) : WorkRepository → Prop where
  | idle : LeaseMove s key owner now extendsTo gaveUp s
  | taken {s' : WorkRepository} {e : DateTime}
      (free : ∀ l, s.leaseOf key = some l → ¬now < l.expiry)
      (lease : s'.leaseOf key = some ⟨owner, e⟩) : LeaseMove s key owner now extendsTo gaveUp s'
  | renewed {s' : WorkRepository} {e e' : DateTime} (held : s.leaseOf key = some ⟨owner, e⟩)
      (live : now < e) (lease : s'.leaseOf key = some ⟨owner, e'⟩) (extended : extendsTo e') :
      LeaseMove s key owner now extendsTo gaveUp s'
  | released {s' : WorkRepository} {e : DateTime} (held : s.leaseOf key = some ⟨owner, e⟩)
      (live : now < e) (lease : s'.leaseOf key = none) (ended : gaveUp) :
      LeaseMove s key owner now extendsTo gaveUp s'

theorem LeaseMove.step {extendsTo : DateTime → Prop} {gaveUp : Prop}
    (h : LeaseMove s key owner now extendsTo gaveUp s') :
    s' = s ∨ Lease.Step now (s.leaseOf key) (some owner) (s'.leaseOf key) := by
  cases h with
  | idle => exact Or.inl rfl
  | taken free lease => exact Or.inr (lease ▸ .grant free owner _)
  | renewed held live lease extended =>
    exact Or.inr (held ▸ lease ▸ .extend ⟨owner, _⟩ live _)
  | released held live lease ended => exact Or.inr (held ▸ lease ▸ .release ⟨owner, _⟩ live)

section Moves

variable {extendsTo : DateTime → Prop} {gaveUp : Prop}

theorem Acquires.leaseOf {d : TimeDelta} {current claimed : WorkItemRecord}
    (h : Acquires s key owner now d current claimed) :
    (s.putItem key claimed).leaseOf key = some ⟨owner, ⟨true, now.instant + d⟩⟩ := by
  rw [h.replaces.leaseOf, h.value]
  rfl

theorem Acquires.not_live {d : TimeDelta} {current claimed : WorkItemRecord}
    (h : Acquires s key owner now d current claimed) {l : Lease String DateTime}
    (hl : s.leaseOf key = some l) : ¬now < l.expiry := by
  obtain ⟨item, hi, hprog, -, hexp⟩ := leaseOf_eq_some hl
  obtain rfl : current = item := Option.some.inj (h.found.symm.trans hi)
  obtain ⟨expiry, he, hle⟩ := h.free hprog
  rw [hexp] at he
  cases he
  exact not_lt_of_ge hle

theorem ClaimOutcome.leaseMove {d : TimeDelta} {r : Except PyError WorkClaim × WorkRepository}
    (h : ClaimOutcome s key owner now d r) : LeaseMove s key owner now extendsTo gaveUp r.2 := by
  cases h with
  | raised e => exact .idle
  | duplicate current found busy => exact .idle
  | acquired current claimed h => exact .taken (fun l => h.not_live) h.leaseOf

theorem ClaimOutcome.granted {d : TimeDelta} {r : Except PyError WorkClaim × WorkRepository}
    {c : WorkClaim} {e : DateTime} (h : ClaimOutcome s key owner now d r) (hok : r.1 = .ok c)
    (hacq : c.acquired) (he : c.item.val.leaseExpiresAt = some e) :
    Lease.Step now (s.leaseOf key) (some owner) (some ⟨owner, e⟩) ∧
      r.2.leaseOf key = some ⟨owner, e⟩ := by
  cases h with
  | raised e => cases hok
  | duplicate current found busy => cases hok; cases hacq
  | acquired current claimed h =>
    cases hok
    rw [h.value] at he
    cases he
    exact ⟨.grant (fun l => h.not_live) _ _, h.leaseOf⟩

theorem RenewOutcome.leaseMove {d : TimeDelta}
    {r : Except PyError WorkItemRecord × WorkRepository} (h : RenewOutcome s key owner now d r)
    (he : ∀ item e, r.1 = .ok item → item.val.leaseExpiresAt = some e → extendsTo e) :
    LeaseMove s key owner now extendsTo gaveUp r.2 := by
  cases h with
  | raised e => exact .idle
  | renewed current renewed h =>
    obtain ⟨expiry, -, hlt, hl⟩ := h.owned.leaseOf
    have hexp : renewed.val.leaseExpiresAt = some ⟨true, now.instant + d⟩ := by rw [h.value]
    have hl' : (s.putItem key renewed).leaseOf key = some ⟨owner, ⟨true, now.instant + d⟩⟩ := by
      rw [h.replaces.leaseOf, h.value]
      simp [h.owned.owner_eq]
    exact .renewed hl hlt hl' (he renewed _ rfl hexp)

theorem Owned.released {current next : WorkItemRecord} {state : WorkState}
    {ref : Option ObjectReference} (ho : s.Owned key owner now current)
    (hr : Replaces s s' key current next) (hn : next.val = releasedFields current state ref)
    (hg : gaveUp) : LeaseMove s key owner now extendsTo gaveUp s' := by
  obtain ⟨expiry, -, hlt, hl⟩ := ho.leaseOf
  refine .released hl hlt ?_ hg
  rw [hr.leaseOf, hn]
  rfl

theorem CheckpointOutcome.leaseMove {stage : CheckpointStage} {outcome : String}
    {ref : Option ObjectReference} {r : Except PyError CheckpointRecord × WorkRepository}
    (h : CheckpointOutcome s key owner stage outcome now ref r) (hs : s.Recorded)
    (hg : (∀ c ∈ s.checkpointsOf key, c.val.completedStage ≠ stage) →
      (∃ record, r.1 = .ok record) → gaveUp) :
    LeaseMove s key owner now extendsTo gaveUp r.2 := by
  cases h with
  | raised e => exact .idle
  | repeated current last owned latest same => exact .idle
  | recorded current updated record h =>
    refine h.owned.released h.replaces h.value (hg ?_ ⟨record, rfl⟩)
    rintro c hc rfl
    obtain ⟨last, hlast⟩ : ∃ last, s.latest key = some last :=
      Option.ne_none_iff_exists'.1 fun hn =>
        List.ne_nil_of_mem hc (List.getLast?_eq_none_iff.1 hn)
    have h1 := hs.order_le_latest hc hlast
    have h2 := h.forward last hlast
    omega

theorem TerminalizeOutcome.leaseMove {state : TerminalWorkItemState}
    {code details : Option String} {ref : Option ObjectReference}
    {r : Except PyError TerminalWorkItemRecord × WorkRepository}
    (h : TerminalizeOutcome s key owner state code details now ref r)
    (hg : (∃ record, r.1 = .ok record) → gaveUp) :
    LeaseMove s key owner now extendsTo gaveUp r.2 := by
  cases h with
  | raised e => exact .idle
  | repeated existing found same => exact .idle
  | settled current completed record h =>
    exact h.owned.released h.replaces h.value (hg ⟨record, rfl⟩)

end Moves

theorem call_leaseMove (hs : s.Recorded) {call : StoreCall}
    (hu : call.leaseUse = some (key, owner, now)) :
    LeaseMove s key owner now (fun e => s.ExtendsTo key owner e call)
      (s.GivesUp key owner call) (storeMachine call s).2 := by
  cases call <;> simp only [StoreCall.leaseUse, Option.some.injEq, Prod.mk.injEq,
    reduceCtorEq] at hu
  all_goals
    obtain ⟨rfl, rfl, rfl⟩ := hu
    simp only [storeMachine, StoreCall.program, exec_map]
  case claim => exact (claim_outcome ..).leaseMove
  case renew key owner now d =>
    refine (renew_outcome ..).leaseMove fun item e hitem he => ⟨rfl, rfl, item, ?_, he⟩
    simp only [storeMachine, StoreCall.program, exec_map, hitem]
    rfl
  case checkpoint key owner stage outcome now ref =>
    refine (checkpoint_outcome ..).leaseMove hs fun hnew hcommitted => ?_
    obtain ⟨record, hrec⟩ := hcommitted
    refine ⟨rfl, rfl, hnew, record, ?_⟩
    simp only [storeMachine, StoreCall.program, exec_map, hrec]
    rfl
  case terminalize key owner state code details now ref =>
    refine (terminalize_outcome ..).leaseMove fun hended => ?_
    obtain ⟨record, hrec⟩ := hended
    refine ⟨rfl, rfl, record, ?_⟩
    simp only [storeMachine, StoreCall.program, exec_map, hrec]
    rfl

theorem claim_of_live {item : WorkItemRecord} {expiry : DateTime} (d : TimeDelta)
    (hi : s.items.get? key = some item) (hp : item.val.state = .inProgress)
    (he : item.val.leaseExpiresAt = some expiry) (hlt : now < expiry) :
    (claim key.1 key.2 owner now d).exec s =
      ((validateLease owner now d).map fun _ => ⟨.activeDuplicate, item, s.latest key⟩, s) := by
  have hactive : leaseActive item now = .ok true := by
    simp only [leaseActive, hp, he, if_true]
    exact DateTime.before_eq_ok.2 ⟨hlt.1, by simp [hlt.2]⟩
  have hitem : s.requireItem key = .ok item := requireItem_eq_ok.2 hi
  unfold claim
  simp only [exec_bind, exec_liftExcept, exec_get]
  cases validateLease owner now d with
  | error err => rfl
  | ok u => simp [hitem, hp, exec_bind, hactive, Except.map]

theorem Owned.owner_eq_holder {item : WorkItemRecord} {l : Lease String DateTime}
    (h : s.Owned key owner now item) (hl : s.leaseOf key = some l) : owner = l.owner := by
  obtain ⟨expiry, -, -, hl'⟩ := h.leaseOf
  rw [hl'] at hl
  cases hl
  rfl

theorem renew_of_other {l : Lease String DateTime} (hl : s.leaseOf key = some l)
    (ho : owner ≠ l.owner) (d : TimeDelta) :
    ∃ err, (renew key.1 key.2 owner now d).exec s = (.error err, s) := by
  generalize hr : (renew key.1 key.2 owner now d).exec s = r
  cases hr ▸ renew_outcome s key.1 key.2 owner now d with
  | raised e => exact ⟨e, rfl⟩
  | renewed current renewed h => exact absurd (h.owned.owner_eq_holder hl) ho

theorem checkpoint_of_other {l : Lease String DateTime} (hl : s.leaseOf key = some l)
    (ho : owner ≠ l.owner) (stage : CheckpointStage) (outcome : String)
    (ref : Option ObjectReference) :
    ∃ err, (checkpoint key.1 key.2 owner stage outcome now ref).exec s = (.error err, s) := by
  generalize hr : (checkpoint key.1 key.2 owner stage outcome now ref).exec s = r
  cases hr ▸ checkpoint_outcome s key.1 key.2 owner stage outcome now ref with
  | raised e => exact ⟨e, rfl⟩
  | repeated current last owned latest same => exact absurd (owned.owner_eq_holder hl) ho
  | recorded current updated record h => exact absurd (h.owned.owner_eq_holder hl) ho

theorem terminalize_of_other {l : Lease String DateTime} (hs : s.Recorded)
    (hl : s.leaseOf key = some l) (ho : owner ≠ l.owner) (state : TerminalWorkItemState)
    (code details : Option String) (ref : Option ObjectReference) :
    ∃ err, (terminalize key.1 key.2 owner state code details now ref).exec s =
      (.error err, s) := by
  generalize hr : (terminalize key.1 key.2 owner state code details now ref).exec s = r
  cases hr ▸ terminalize_outcome s key.1 key.2 owner state code details now ref with
  | raised e => exact ⟨e, rfl⟩
  | repeated existing found same =>
    -- the early return needs a terminal record, which only a closed item has
    obtain ⟨item, hi, hc⟩ := (hs.closed key).2 (Or.inl ⟨existing, found⟩)
    obtain ⟨item', hi', hp, -⟩ := leaseOf_eq_some hl
    rw [hi] at hi'
    cases hi'
    rw [hc] at hp
    cases hp
  | settled current completed record h => exact absurd (h.owned.owner_eq_holder hl) ho

theorem leaseOf_of_other {call : StoreCall} {l : Lease String DateTime}
    (hl : s.leaseOf key = some l) (hu : ∀ owner now, call.leaseUse ≠ some (key, owner, now)) :
    (storeMachine call s).2.leaseOf key = some l := by
  obtain ⟨item, hi, -⟩ := leaseOf_eq_some hl
  rw [← hl]
  unfold leaseOf
  rw [call_frame hi hu, hi]

end WorkRepository

/-- `LeasePeriod key w e s`: from a reached store a claim by `w` was acquired; since then
any calls were made by anyone, those on the item at times before the expiry of that
moment, and none of them was `w` giving the lease up; the store is now `s` and the
lease, renewed or not, runs to `e`. Runs with non-decreasing times are among these
until the time reaches the expiry; the order of the times is not needed. -/
inductive LeasePeriod (key : Key) (w : String) : DateTime → WorkRepository → Prop where
  | acquired {s : WorkRepository} {now e : DateTime} {d : TimeDelta} {claim : WorkClaim}
      (reached : s.Reached)
      (h : (storeMachine (.claim key w now d) s).1 = .ok (.claim claim)) (acquired : claim.acquired)
      (expiry : claim.item.val.leaseExpiresAt = some e) :
      LeasePeriod key w e (storeMachine (.claim key w now d) s).2
  | renewed {s : WorkRepository} {e e' now : DateTime} (period : LeasePeriod key w e s)
      (call : StoreCall) (use : call.leaseUse = some (key, w, now)) (live : now < e)
      (extended : s.ExtendsTo key w e' call) : LeasePeriod key w e' (storeMachine call s).2
  | call {s : WorkRepository} {e now : DateTime} {owner : String}
      (period : LeasePeriod key w e s) (call : StoreCall)
      (use : call.leaseUse = some (key, owner, now)) (live : now < e)
      (kept : ¬s.GivesUp key w call) (same : ∀ e', ¬s.ExtendsTo key w e' call) :
      LeasePeriod key w e (storeMachine call s).2
  | other {s : WorkRepository} {e : DateTime} (period : LeasePeriod key w e s)
      (call : StoreCall) (use : ∀ owner now, call.leaseUse ≠ some (key, owner, now)) :
      LeasePeriod key w e (storeMachine call s).2

namespace LeasePeriod

variable {key : Key} {w : String} {e now : DateTime} {s : WorkRepository}

theorem reached (h : LeasePeriod key w e s) : s.Reached := by
  induction h with
  | acquired reached h acquired expiry => exact reached.call _
  | renewed period call use live extended ih => exact ih.call _
  | call period call use live kept same ih => exact ih.call _
  | other period call use ih => exact ih.call _

theorem leaseOf_of_extends {e' : DateTime} {call : StoreCall} (h : s.ExtendsTo key w e' call) :
    (storeMachine call s).2.leaseOf key = some ⟨w, e'⟩ := by
  cases call <;> simp only [ExtendsTo] at h
  case renew key' owner' now d =>
    obtain ⟨rfl, rfl, item, hr, he⟩ := h
    simp only [storeMachine, StoreCall.program, exec_map] at hr ⊢
    generalize hx : (renew key'.1 key'.2 owner' now d).exec s = r at hr ⊢
    cases hx ▸ renew_outcome s key'.1 key'.2 owner' now d with
    | raised e => cases hr
    | renewed current renewed h =>
      cases hr
      rw [show (key'.1, key'.2) = key' from rfl] at h
      rw [h.replaces.leaseOf, he, h.value]
      simp [h.owned.owner_eq]

theorem lease (h : LeasePeriod key w e s) : Lease.Period w e (s.leaseOf key) := by
  induction h with
  | @acquired s now e d c reached h acquired expiry =>
    simp only [storeMachine, StoreCall.program, exec_map] at h ⊢
    have hok : ((claim key.1 key.2 w now d).exec s).1 = .ok c := by
      rcases hr : ((claim key.1 key.2 w now d).exec s).1 with e | c'
      · rw [hr] at h; cases h
      · rw [hr] at h
        exact congrArg Except.ok (StoreReply.claim.inj (Except.ok.inj h))
    obtain ⟨step, hl⟩ := (claim_outcome s key.1 key.2 w now d).granted hok acquired expiry
    exact hl ▸ .granted step
  | @renewed s e e' now period call use live extended ih =>
    rw [leaseOf_of_extends extended]
    rw [ih.lease_eq] at ih
    exact Lease.Period.step ih live (.extend ⟨w, e⟩ live e')
  | @call s e now owner period call use live kept same ih =>
    have hl := ih.lease_eq
    have hmove := call_leaseMove period.reached.invariant.recorded use
    generalize (storeMachine call s).2 = s' at hmove ⊢
    cases hmove with
    | idle => exact ih
    | taken free lease => exact absurd live (free _ hl)
    | renewed held live' lease extended =>
      rw [hl] at held
      cases held
      exact absurd extended (same _)
    | released held live' lease ended =>
      rw [hl] at held
      cases held
      exact absurd ended kept
  | other period call use ih =>
    rw [leaseOf_of_other ih.lease_eq use, ← ih.lease_eq]
    exact ih

end LeasePeriod

/-- Within a lease period of `w`: every claim of the item is answered `ACTIVE_DUPLICATE`
(or refused for its own arguments) and changes nothing; every renewal, checkpoint and
terminalization by another owner raises and changes nothing; so only `w` can change
the item. -/
theorem lease_mutual_exclusion {key : Key} {w : String} {e now : DateTime} {s : WorkRepository}
    (period : LeasePeriod key w e s) (live : now < e) :
    (∃ item, s.items.get? key = some item ∧ ∀ owner d,
      (claim key.1 key.2 owner now d).exec s =
        ((validateLease owner now d).map fun _ => ⟨.activeDuplicate, item, s.latest key⟩, s)) ∧
    (∀ owner, owner ≠ w →
      (∀ d, ∃ err, (renew key.1 key.2 owner now d).exec s = (.error err, s)) ∧
      (∀ stage outcome ref, ∃ err,
        (checkpoint key.1 key.2 owner stage outcome now ref).exec s = (.error err, s)) ∧
      (∀ state code details ref, ∃ err,
        (terminalize key.1 key.2 owner state code details now ref).exec s = (.error err, s))) ∧
    ∀ call owner, call.leaseUse = some (key, owner, now) → (storeMachine call s).2 ≠ s →
      owner = w := by
  have hs := period.reached.invariant.recorded
  have hl := period.lease.lease_eq
  obtain ⟨item, hi, hp, -, he⟩ := leaseOf_eq_some hl
  refine ⟨⟨item, hi, fun owner d => claim_of_live d hi hp he live⟩, fun owner ho => ?_,
    fun call owner hu hne => ?_⟩
  · exact ⟨renew_of_other hl ho, checkpoint_of_other hl ho, terminalize_of_other hs hl ho⟩
  · rcases (call_leaseMove hs hu).step with hsame | step
    · exact absurd hsame hne
    · exact period.lease.exclusive live step

namespace Sample

/-- The identity of the sample item. -/
def key : Key := ("bulk-job", "bulk-job:item-1")

def submission : WorkSubmission :=
  ⟨⟨"bulk-job", "item-1", "bulk-job:item-1",
    encodeUtf8 "\x7b\"id\": \"item-1\", \"label\": \"ok\"\x7d"⟩, rfl⟩

def configuration : ConfigurationReference := ⟨⟨"prototype", "1"⟩, rfl⟩

def digest : String := "d4f48c626e7ffeac334733418ad19506af9d904f0fc6fd9ba06fdd068472630b"

def payloadReference : ObjectReference :=
  ⟨⟨"memory://payload/" ++ digest, digest, .payload, 31⟩, rfl⟩

def time (instant : Int) : DateTime := ⟨true, instant⟩

def context : ExecutionContext where
  executionId := ⟨"execution-1", rfl⟩
  correlationId := ⟨"correlation-1", rfl⟩
  path := .bulk
  configuration := ⟨configuration, [], none, some "rules-1"⟩
  timing := ⟨⟨time 0, none⟩, rfl⟩

/-- The submission of the sample item as the store sees it. -/
def create : StoreCall := .create submission context payloadReference (.ok "outbox-1")

def submitted : WorkRepository := storeMachine.run .empty [create]

/-- The sample item leased to worker `a` until 10. -/
def leased : WorkRepository := (storeMachine (.claim key "a" (time 0) 10) submitted).2

theorem leased_period : LeasePeriod key "a" (time 10) leased :=
  .acquired ⟨[create], rfl⟩ rfl rfl rfl

end Sample

theorem lease_mutual_exclusion_sample :
    ∃ err, (renew "bulk-job" "bulk-job:item-1" "b" (Sample.time 5) 10).exec Sample.leased =
      (.error err, Sample.leased) :=
  ((lease_mutual_exclusion Sample.leased_period
    (show Sample.time 5 < Sample.time 10 by decide)).2.1 "b" (by decide)).1 10

end AiRetrieval
