import Mathlib.Algebra.BigOperators.Group.List.Basic
import Mathlib.Algebra.Order.Group.Multiset
import Mathlib.Data.List.Basic
import Mathlib.Order.RelClasses

/-! Histories of a machine that answers each input with a reply and a next state.
The rules here carry a fact about one transition to every transition, every
reachable state and every count of a history. -/

/-- One step of a machine: where it started, its input, its reply, where it ended. -/
structure Transition (ι ω σ : Type) where
  before : σ
  input : ι
  reply : ω
  after : σ

/-- A machine over states `σ` with inputs `ι` and replies `ω`. -/
abbrev Machine (ι ω σ : Type) := ι → σ → ω × σ

namespace Machine

variable {ι ω σ : Type} (m : Machine ι ω σ)

def transition (s : σ) (i : ι) : Transition ι ω σ := ⟨s, i, (m i s).1, (m i s).2⟩

/-- The state after the inputs, taken in order. -/
def run (s : σ) : List ι → σ
  | [] => s
  | i :: rest => run (m i s).2 rest

/-- The transitions of a run, in order. -/
def history (s : σ) : List ι → List (Transition ι ω σ)
  | [] => []
  | i :: rest => m.transition s i :: history (m i s).2 rest

@[simp] theorem run_nil (s : σ) : m.run s [] = s := rfl

@[simp] theorem run_cons (s : σ) (i : ι) (rest : List ι) :
    m.run s (i :: rest) = m.run (m i s).2 rest := rfl

@[simp] theorem history_nil (s : σ) : m.history s [] = [] := rfl

@[simp] theorem history_cons (s : σ) (i : ι) (rest : List ι) :
    m.history s (i :: rest) = m.transition s i :: m.history (m i s).2 rest := rfl

theorem run_append (s : σ) (is js : List ι) : m.run s (is ++ js) = m.run (m.run s is) js := by
  induction is generalizing s with
  | nil => rfl
  | cons i rest ih => exact ih _

theorem history_append (s : σ) (is js : List ι) :
    m.history s (is ++ js) = m.history s is ++ m.history (m.run s is) js := by
  induction is generalizing s with
  | nil => rfl
  | cons i rest ih => rw [List.cons_append, history_cons, ih, history_cons]; rfl

theorem history_inputs (s : σ) (is : List ι) : (m.history s is).map Transition.input = is := by
  induction is generalizing s with
  | nil => rfl
  | cons i rest ih => rw [history_cons, List.map_cons, ih]; rfl

/-- The states a machine started in `s` can be in. -/
def Reachable (s t : σ) : Prop := ∃ is, m.run s is = t

theorem Reachable.refl (s : σ) : m.Reachable s s := ⟨[], rfl⟩

theorem Reachable.step {s t : σ} (h : m.Reachable s t) (i : ι) : m.Reachable s (m i t).2 := by
  obtain ⟨is, rfl⟩ := h
  exact ⟨is ++ [i], m.run_append s is [i]⟩

section Rules

variable {m}

theorem run_invariant_on {P : σ → Prop} {A : Transition ι ω σ → Prop}
    (hstep : ∀ i s, A (m.transition s i) → P s → P (m i s).2) {s : σ} (h : P s) (is : List ι)
    (ha : ∀ t ∈ m.history s is, A t) : P (m.run s is) := by
  induction is generalizing s with
  | nil => exact h
  | cons i rest ih =>
    rw [history_cons, List.forall_mem_cons] at ha
    exact ih (hstep i s ha.1 h) ha.2

theorem run_invariant {P : σ → Prop} (hstep : ∀ i s, P s → P (m i s).2) {s : σ} (h : P s)
    (is : List ι) : P (m.run s is) :=
  run_invariant_on (A := fun _ => True) (fun i s _ => hstep i s) h is fun _ _ => trivial

theorem Reachable.invariant {P : σ → Prop} (hstep : ∀ i s, P s → P (m i s).2) {s t : σ}
    (hr : m.Reachable s t) (h : P s) : P t := by
  obtain ⟨is, rfl⟩ := hr
  exact run_invariant hstep h is

theorem run_moves {R : σ → σ → Prop} [IsPreorder σ R] (hstep : ∀ i s, R s (m i s).2) (s : σ)
    (is : List ι) : R s (m.run s is) := by
  induction is generalizing s with
  | nil => exact refl_of R s
  | cons i rest ih => exact trans_of R (hstep i s) (ih _)

theorem history_invariant {P : σ → Prop} (hstep : ∀ i s, P s → P (m i s).2) {s : σ} (h : P s)
    {is : List ι} {t : Transition ι ω σ} (ht : t ∈ m.history s is) : P t.before := by
  induction is generalizing s with
  | nil => cases ht
  | cons i rest ih =>
    rw [history_cons, List.mem_cons] at ht
    rcases ht with rfl | ht
    · exact h
    · exact ih (hstep i s h) ht

theorem history_transition {s : σ} {is : List ι} {t : Transition ι ω σ}
    (ht : t ∈ m.history s is) : ∃ s i, t = m.transition s i := by
  induction is generalizing s with
  | nil => cases ht
  | cons i rest ih =>
    rw [history_cons, List.mem_cons] at ht
    rcases ht with rfl | ht
    · exact ⟨s, i, rfl⟩
    · exact ih ht

/-- Where a property survives exactly the transitions of a kind, every state a run reaches
has it exactly when every transition of the run is of that kind. -/
theorem history_iff {I P : σ → Prop} {A : Transition ι ω σ → Prop}
    (hI : ∀ i s, I s → I (m i s).2)
    (hstep : ∀ i s, I s → P s → (P (m i s).2 ↔ A (m.transition s i))) {s : σ} (hs : I s)
    (h : P s) (is : List ι) :
    (∀ t ∈ m.history s is, P t.after) ↔ ∀ t ∈ m.history s is, A t := by
  induction is generalizing s with
  | nil => simp
  | cons i rest ih =>
    simp only [history_cons, List.forall_mem_cons]
    rw [← hstep i s hs h]
    exact and_congr_right fun h' => ih (hI i s hs) h'

theorem history_split {s : σ} {is : List ι} {earlier later : List (Transition ι ω σ)}
    (h : m.history s is = earlier ++ later) :
    ∃ js ks, is = js ++ ks ∧ m.history s js = earlier ∧ m.history (m.run s js) ks = later := by
  induction earlier generalizing s is with
  | nil => exact ⟨[], is, rfl, rfl, h⟩
  | cons t earlier ih =>
    cases is with
    | nil => cases h
    | cons i rest =>
      rw [history_cons, List.cons_append, List.cons.injEq] at h
      obtain ⟨js, ks, rfl, hjs, hks⟩ := ih h.2
      exact ⟨i :: js, ks, rfl, by rw [history_cons, h.1, hjs], hks⟩

/-- What holds after one transition of a history, and is kept by those that follow up to
another, holds before that other. -/
theorem history_between {I P : σ → Prop} {A : Transition ι ω σ → Prop}
    (hI : ∀ i s, I s → I (m i s).2)
    (hstep : ∀ i s, I s → A (m.transition s i) → P s → P (m i s).2) {s : σ} (hs : I s)
    {is : List ι} {earlier between later : List (Transition ι ω σ)} {t t' : Transition ι ω σ}
    (h : m.history s is = earlier ++ t :: (between ++ t' :: later)) (hP : P t.after)
    (hA : ∀ u ∈ between, A u) : P t'.before := by
  obtain ⟨js, ks, -, -, hks⟩ := history_split h
  cases ks with
  | nil => cases hks
  | cons i rest =>
    rw [history_cons, List.cons.injEq] at hks
    obtain ⟨rfl, hrest⟩ := hks
    have hi := hI i _ (run_invariant hI hs js)
    obtain ⟨js', ks', -, hbetween, hks'⟩ := history_split hrest
    cases ks' with
    | nil => cases hks'
    | cons i' rest' =>
      rw [history_cons, List.cons.injEq] at hks'
      obtain ⟨rfl, -⟩ := hks'
      have hboth := run_invariant_on (m := m) (P := fun s => I s ∧ P s) (A := A)
        (fun i s ha h => ⟨hI i s h.1, hstep i s h.1 ha h.2⟩) ⟨hi, hP⟩ js' (by rwa [hbetween])
      exact hboth.2

theorem run_count {P : σ → Prop} (hstep : ∀ i s, P s → P (m i s).2) (f : σ → Nat)
    (p : Transition ι ω σ → Bool)
    (hf : ∀ i s, P s → f (m i s).2 = f s + if p (m.transition s i) then 1 else 0)
    {s : σ} (h : P s) (is : List ι) : f (m.run s is) = f s + (m.history s is).countP p := by
  induction is generalizing s with
  | nil => rfl
  | cons i rest ih =>
    rw [run_cons, history_cons, ih (hstep i s h), hf i s h, List.countP_cons]
    omega

theorem run_log {α : Type} (log : σ → List α) (new : Transition ι ω σ → List α)
    (hstep : ∀ i s, log (m i s).2 = log s ++ new (m.transition s i)) (s : σ) (is : List ι) :
    log (m.run s is) = log s ++ (m.history s is).flatMap new := by
  induction is generalizing s with
  | nil => simp
  | cons i rest ih =>
    rw [run_cons, ih, hstep, history_cons, List.flatMap_cons, List.append_assoc]

/-- A property of the state, of a log the steps append to and of the number of steps of a kind:
what every step keeps, every run keeps. -/
theorem run_logged {α : Type} {P : σ → List α → Nat → Prop} (new : Transition ι ω σ → List α)
    (p : Transition ι ω σ → Bool)
    (hstep : ∀ i s log n, P s log n → P (m i s).2 (log ++ new (m.transition s i))
      (n + if p (m.transition s i) then 1 else 0))
    {s : σ} {log : List α} {n : Nat} (h : P s log n) (is : List ι) :
    P (m.run s is) (log ++ (m.history s is).flatMap new) (n + (m.history s is).countP p) := by
  induction is generalizing s log n with
  | nil => simpa using h
  | cons i rest ih =>
    have hnext := ih (hstep i s log n h)
    rw [List.append_assoc, Nat.add_assoc] at hnext
    rw [run_cons, history_cons, List.flatMap_cons, List.countP_cons,
      Nat.add_comm ((m.history _ rest).countP p)]
    exact hnext

/-- Conservation: where every transition of a run keeps what its state holds up to what
it takes in and gives out, so does the run. -/
theorem run_balance {M : Type} [AddCommMonoid M] (held : σ → M) (into out : Transition ι ω σ → M)
    (s : σ) (is : List ι)
    (hbal : ∀ t ∈ m.history s is, held t.before + into t = held t.after + out t) :
    held s + ((m.history s is).map into).sum =
      held (m.run s is) + ((m.history s is).map out).sum := by
  induction is generalizing s with
  | nil => simp
  | cons i rest ih =>
    have h1 := hbal (m.transition s i) (List.mem_cons_self ..)
    have h2 := ih (m i s).2 fun t ht => hbal t (List.mem_cons_of_mem _ ht)
    simp only [transition] at h1
    simp only [history_cons, run_cons, List.map_cons, List.sum_cons]
    calc held s + (into (m.transition s i) + _)
        = held (m i s).2 + out (m.transition s i) + _ := by
          rw [← add_assoc]
          exact congrArg (· + _) h1
      _ = out (m.transition s i) +
        (held (m i s).2 + ((m.history (m i s).2 rest).map into).sum) := by
        rw [add_comm (held _), add_assoc]
      _ = out (m.transition s i) + (held _ + ((m.history (m i s).2 rest).map out).sum) := by rw [h2]
      _ = held _ + (out (m.transition s i) + ((m.history (m i s).2 rest).map out).sum) :=
        add_left_comm ..

/-- Nothing is lost and nothing is made twice: where every transition of a run keeps what its
state holds up to what it takes in and gives out, so does the run. -/
theorem run_perm {α : Type} (held : σ → List α) (into out : Transition ι ω σ → List α)
    (s : σ) (is : List ι)
    (hbal : ∀ t ∈ m.history s is, (held t.before ++ into t).Perm (held t.after ++ out t)) :
    (held s ++ (m.history s is).flatMap into).Perm
      (held (m.run s is) ++ (m.history s is).flatMap out) := by
  have hsum (f : Transition ι ω σ → List α) (l : List (Transition ι ω σ)) :
      (↑(l.flatMap f) : Multiset α) = (l.map fun t => (↑(f t) : Multiset α)).sum := by
    induction l with
    | nil => rfl
    | cons t rest ih =>
      rw [List.flatMap_cons, ← Multiset.coe_add, ih, List.map_cons, List.sum_cons]
  rw [← Multiset.coe_eq_coe, ← Multiset.coe_add, ← Multiset.coe_add, hsum, hsum]
  refine run_balance (fun s => (↑(held s) : Multiset α)) _ _ s is fun t ht => ?_
  rw [Multiset.coe_add, Multiset.coe_add, Multiset.coe_eq_coe]
  exact hbal t ht

end Rules

end Machine
