import AiRetrieval.Spec.MemoryAdapters
import Mathlib.Algebra.Order.Group.Multiset

/-! What the notification broker keeps of the notifications it was given. -/

namespace AiRetrieval

open Program NotificationBroker

namespace NotificationBroker

def held (b : NotificationBroker) : Multiset WorkNotification := b.queued + b.inflight.values

def published (t : BrokerTransition) : Multiset WorkNotification :=
  match t.input with
  | .publish notification => {notification}
  | _ => 0

def acknowledged (t : BrokerTransition) : Multiset WorkNotification :=
  match t.input with
  | .acknowledge deliveryId => (t.before.inflight.get? deliveryId).elim 0 ({·})
  | _ => 0

/-- A receive that has something to deliver is given an identifier that is not blank and
not in use. -/
def Answered (t : BrokerTransition) : Prop :=
  ∀ identifier, t.input = .receive identifier → t.before.queued ≠ [] →
    ∃ deliveryId, identifier = .ok deliveryId ∧ blank deliveryId = false ∧
      t.before.inflight.contains deliveryId = false

variable {b : NotificationBroker}

theorem receive_of_empty (identifier : Except PyError String) (h : b.queued = []) :
    (receive identifier).exec b = (.ok none, b) := by
  unfold receive
  simp only [exec_bind, exec_get, h, exec_pure]

/-- A receive that finds something has taken it off the queue, whatever it is answered. -/
theorem receive_of_queued {notification : WorkNotification} {rest : List WorkNotification}
    (identifier : Except PyError String) (h : b.queued = notification :: rest) :
    ((receive identifier).exec b).2.queued = rest := by
  unfold receive
  simp only [exec_bind, exec_get, h, exec_set, exec_liftExcept]
  cases identifier with
  | error e => rfl
  | ok deliveryId =>
    simp only
    split
    · rfl
    · simp only [exec_bind, exec_modify, exec_liftExcept]
      cases Checked.make BrokerDelivery.postInit ⟨deliveryId, notification⟩ <;> rfl

theorem receive_answered {notification : WorkNotification} {rest : List WorkNotification}
    {deliveryId : String} (h : b.queued = notification :: rest) (hb : blank deliveryId = false)
    (hf : b.inflight.contains deliveryId = false) :
    ∃ delivery, (receive (.ok deliveryId)).exec b = (.ok (some delivery),
      ⟨rest, b.inflight.insert deliveryId notification⟩) := by
  have hpass : BrokerDelivery.postInit ⟨deliveryId, notification⟩ = .ok () :=
    requireText_eq_ok.2 hb
  unfold receive
  simp only [exec_bind, exec_get, h, exec_set, exec_liftExcept, hb, hf, Bool.false_eq_true,
    or_self, if_false, exec_modify, Checked.make_of_passed hpass, exec_pure]
  exact ⟨_, rfl⟩

theorem receive_returns {notification : WorkNotification} {rest : List WorkNotification}
    {identifier : Except PyError String} {delivery : Option BrokerDelivery}
    (h : b.queued = notification :: rest) (hr : ((receive identifier).exec b).1 = .ok delivery) :
    ∃ deliveryId, identifier = .ok deliveryId ∧ blank deliveryId = false ∧
      b.inflight.contains deliveryId = false := by
  unfold receive at hr
  simp only [exec_bind, exec_get, h, exec_set, exec_liftExcept] at hr
  cases identifier with
  | error e => cases hr
  | ok deliveryId =>
    simp only at hr
    split at hr
    · cases hr
    · next hfresh => exact ⟨deliveryId, rfl, by simpa using hfresh⟩

theorem answered_returns {identifier : Except PyError String}
    (h : Answered (brokerMachine.transition b (.receive identifier))) :
    ∃ delivery, ((receive identifier).exec b).1 = .ok delivery := by
  cases hq : b.queued with
  | nil => exact ⟨none, by rw [receive_of_empty _ hq]⟩
  | cons notification rest =>
    obtain ⟨deliveryId, rfl, hb, hf⟩ := h identifier rfl (by simp [Machine.transition, hq])
    obtain ⟨delivery, hd⟩ := receive_answered hq hb hf
    exact ⟨some delivery, by rw [hd]⟩

theorem transition_balance {call : BrokerCall}
    (h : Answered (brokerMachine.transition b call)) :
    held b + published (brokerMachine.transition b call) =
      held (brokerMachine call b).2 + acknowledged (brokerMachine.transition b call) := by
  cases call with
  | publish notification =>
    simp only [brokerMachine, BrokerCall.program, exec_map, publish, exec_modify, held, published,
      acknowledged, Machine.transition, ← Multiset.coe_add, Multiset.coe_singleton, add_zero]
    rw [add_right_comm]
  | receive identifier =>
    simp only [brokerMachine, BrokerCall.program, exec_map, published, acknowledged,
      Machine.transition, add_zero]
    cases hq : b.queued with
    | nil => rw [receive_of_empty _ hq]
    | cons notification rest =>
      obtain ⟨deliveryId, rfl, hb, hf⟩ := h identifier rfl (by simp [Machine.transition, hq])
      obtain ⟨delivery, hd⟩ := receive_answered hq hb hf
      have hfree : b.inflight.get? deliveryId = none := by
        simpa [Dict.contains, Machine.transition] using hf
      rw [hd]
      simp only [held, hq, Dict.values_insert_of_get?_none _ hfree, ← Multiset.coe_add,
        ← Multiset.cons_coe]
      rw [Multiset.cons_add, ← add_assoc, ← Multiset.singleton_add, add_comm]
      rfl
  | acknowledge deliveryId =>
    simp only [brokerMachine, BrokerCall.program, exec_map, acknowledge, exec_bind, exec_get,
      exec_set, exec_pure, held, published, acknowledged, Machine.transition, add_zero]
    cases hd : b.inflight.get? deliveryId with
    | none =>
      have herase : b.inflight.erase deliveryId = b.inflight := Dict.erase_of_get?_none hd
      rw [herase, Option.elim_none, add_zero]
    | some notification =>
      rw [Option.elim_some, Dict.values_erase_of_get?_some hd, add_assoc]
  | redeliverUnacknowledged =>
    simp only [brokerMachine, BrokerCall.program, exec_map, redeliverUnacknowledged, exec_bind,
      exec_get, exec_set, exec_pure, held, published, acknowledged, Machine.transition, add_zero,
      ← Multiset.coe_add]
    rw [add_comm]
    simp [Dict.empty, Dict.values]

end NotificationBroker

/-- What the broker promises of a run: the published notifications are those queued, in
flight or acknowledged, a receive that raises changes nothing, and no two deliveries in
flight share an identifier. -/
structure BrokerConserves (calls : List BrokerCall) : Prop where
  conserved : ((brokerMachine.history .empty calls).map published).sum =
    held (brokerMachine.run .empty calls) +
      ((brokerMachine.history .empty calls).map acknowledged).sum
  receives : ∀ t ∈ brokerMachine.history .empty calls, ∀ identifier e,
    t.input = .receive identifier → t.reply = .error e → t.after = t.before
  unique : (brokerMachine.run .empty calls).inflight.keys.Nodup

/-- The broker keeps its promise in exactly the runs in which every receive that has
something to deliver is given a fresh, non-blank identifier. -/
theorem broker_conserves_iff (calls : List BrokerCall) :
    BrokerConserves calls ↔ ∀ t ∈ brokerMachine.history .empty calls, Answered t := by
  constructor
  · intro h t ht identifier hin hq
    obtain ⟨b, call, rfl⟩ := Machine.history_transition ht
    obtain rfl : call = .receive identifier := hin
    obtain ⟨notification, rest, hqueue⟩ := List.exists_cons_of_ne_nil hq
    by_contra hbad
    simp only [Machine.transition] at hbad hqueue
    rcases hr : ((receive identifier).exec b).1 with e | delivery
    · -- the raise came after the notification had left the queue
      have hgone := receive_of_queued identifier hqueue
      have hsame := h.receives _ ht identifier e rfl (by
        simp only [Machine.transition, brokerMachine, BrokerCall.program, exec_map, hr]
        rfl)
      simp only [Machine.transition, brokerMachine, BrokerCall.program, exec_map] at hsame
      rw [hsame, hqueue] at hgone
      exact List.cons_ne_self _ _ hgone
    · exact hbad (receive_returns hqueue hr)
  · intro h
    refine ⟨?_, fun t ht identifier e hin he => ?_, (brokerMachine.run .empty calls).inflight.nodup⟩
    · have hbal := Machine.run_balance held published acknowledged .empty calls fun t ht => by
        have hans := h t ht
        obtain ⟨b, call, rfl⟩ := Machine.history_transition ht
        exact transition_balance hans
      simpa [held, empty, Dict.empty, Dict.values] using hbal
    · have hans := h t ht
      obtain ⟨b, call, rfl⟩ := Machine.history_transition ht
      obtain rfl : call = .receive identifier := hin
      obtain ⟨delivery, hd⟩ := answered_returns hans
      simp only [Machine.transition, brokerMachine, BrokerCall.program, exec_map, hd] at he
      cases he

def Sample.notification : WorkNotification :=
  ⟨⟨"outbox-1", "bulk-job", "item-1", "bulk-job:item-1", "1", "memory://payload/d4f4", "d4f4", 0⟩,
    rfl⟩

/-- When the identifier source is exhausted, the notification it was asked for is gone. -/
theorem broker_drops_notification :
    ¬BrokerConserves [.publish Sample.notification,
      .receive (.error (.raised .stopIteration ""))] := fun h =>
  absurd (h.receives _ (List.mem_cons_of_mem _ (List.mem_singleton_self _)) _ _ rfl rfl)
    (by decide)

end AiRetrieval
