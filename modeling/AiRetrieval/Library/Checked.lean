import Mathlib.Data.List.Forall2
import Mathlib.Logic.Basic

/-! Values that passed the check of their constructor. A record type whose
constructor validates its fields is `Checked check` for the record of its bare
fields; no value of it exists that the check refuses. -/

/-- Raise `e` unless `p` holds. -/
def require {ε : Type} (p : Prop) [Decidable p] (e : ε) : Except ε Unit :=
  if p then .ok () else .error e

theorem require_eq_ok {ε : Type} {p : Prop} [Decidable p] {e : ε} :
    require p e = .ok () ↔ p := by
  unfold require
  split <;> simp [*]

theorem require_of {ε : Type} {p : Prop} [Decidable p] {e : ε} (h : p) : require p e = .ok () :=
  require_eq_ok.2 h

/-- A sequence of checks passes when each of them does. -/
theorem except_seq_eq_ok {ε β : Type} {x : Except ε Unit} {f : Unit → Except ε β} {b : β} :
    (x >>= f) = .ok b ↔ x = .ok () ∧ f () = .ok b := by
  cases x with
  | error e => simp [bind, Except.bind]
  | ok a => simp [bind, Except.bind]

theorem except_bind_eq_ok {ε α β : Type} {x : Except ε α} {f : α → Except ε β} {b : β} :
    (x >>= f) = .ok b ↔ ∃ a, x = .ok a ∧ f a = .ok b := by
  cases x with
  | error e => simp [bind, Except.bind]
  | ok a => simp [bind, Except.bind]

theorem except_ok_bind {ε α β : Type} (a : α) (f : α → Except ε β) :
    (Except.ok a >>= f) = f a := rfl

theorem except_mapError_eq_ok {ε ε' α : Type} {x : Except ε α} {f : ε → ε'} {a : α} :
    x.mapError f = .ok a ↔ x = .ok a := by
  cases x with
  | error e => exact iff_of_false (fun h => nomatch h) (fun h => nomatch h)
  | ok b => exact Iff.of_eq (by rw [Except.mapError, Except.ok.injEq, Except.ok.injEq])

/-- A loop whose every step returns is the list of what the steps return. -/
theorem except_mapM_eq_ok {ε α β : Type} {f : α → Except ε β} {g : α → β} {l : List α}
    (h : ∀ a ∈ l, f a = .ok (g a)) : l.mapM f = .ok (l.map g) := by
  induction l with
  | nil => rfl
  | cons a rest ih =>
    rw [List.mapM_cons, h a (List.mem_cons_self ..),
      ih fun b hb => h b (List.mem_cons_of_mem a hb)]
    rfl

/-- A loop returns what its steps return, in order. -/
theorem except_mapM_ok_iff {ε α β : Type} {f : α → Except ε β} {l : List α} {out : List β} :
    l.mapM f = .ok out ↔ List.Forall₂ (fun a b => f a = .ok b) l out := by
  induction l generalizing out with
  | nil =>
    rw [List.mapM_nil, List.forall₂_nil_left_iff]
    exact ⟨fun h => (by cases h; rfl), fun h => (by rw [h]; rfl)⟩
  | cons a rest ih =>
    rw [List.mapM_cons, List.forall₂_cons_left_iff]
    constructor
    · intro h
      obtain ⟨b, hb, h⟩ := except_bind_eq_ok.1 h
      obtain ⟨others, hothers, h⟩ := except_bind_eq_ok.1 h
      cases h
      exact ⟨b, others, hb, ih.1 hothers, rfl⟩
    · rintro ⟨b, others, hb, hothers, rfl⟩
      rw [hb, ih.2 hothers]
      rfl

theorem exists_of_forall₂ {α β : Type} {R : α → β → Prop} {l : List α} {out : List β}
    (h : List.Forall₂ R l out) : ∀ a ∈ l, ∃ b, R a b := by
  induction h with
  | nil => exact fun _ hmem => (by cases hmem)
  | cons hfirst _ ih =>
    rw [List.forall_mem_cons]
    exact ⟨⟨_, hfirst⟩, ih⟩

/-- A loop returns when every step does. -/
theorem except_mapM_returns_iff {ε α β : Type} {f : α → Except ε β} {l : List α} :
    (∃ out, l.mapM f = .ok out) ↔ ∀ a ∈ l, ∃ b, f a = .ok b := by
  simp only [except_mapM_ok_iff]
  constructor
  · rintro ⟨out, h⟩
    exact exists_of_forall₂ h
  · intro h
    induction l with
    | nil => exact ⟨[], .nil⟩
    | cons a rest ih =>
      rw [List.forall_mem_cons] at h
      obtain ⟨b, hb⟩ := h.1
      obtain ⟨others, hothers⟩ := ih h.2
      exact ⟨b :: others, .cons hb hothers⟩

section Raising

variable {ε ε' α β : Type} {P : ε → Prop}

/-- What is raised, if anything is, is of a kind. -/
def OnlyRaises (P : ε → Prop) (x : Except ε α) : Prop := ∀ e, x = .error e → P e

theorem onlyRaises_ok (a : α) : OnlyRaises P (.ok a : Except ε α) := fun _ h => (by cases h)

theorem onlyRaises_error {e : ε} (h : P e) : OnlyRaises P (.error e : Except ε α) := by
  intro e' he
  cases he
  exact h

theorem OnlyRaises.bind {x : Except ε α} {f : α → Except ε β} (hx : OnlyRaises P x)
    (hf : ∀ a, x = .ok a → OnlyRaises P (f a)) : OnlyRaises P (x >>= f) := by
  cases x with
  | error e => exact onlyRaises_error (hx e rfl)
  | ok a => exact hf a rfl

theorem OnlyRaises.map {x : Except ε α} (hx : OnlyRaises P x) (f : α → β) :
    OnlyRaises P (f <$> x) := by
  cases x with
  | error e => exact onlyRaises_error (hx e rfl)
  | ok a => exact onlyRaises_ok (f a)

theorem OnlyRaises.mapError {Q : ε' → Prop} {x : Except ε α} {f : ε → ε'}
    (hx : OnlyRaises (fun e => Q (f e)) x) : OnlyRaises Q (x.mapError f) := by
  cases x with
  | error e => exact onlyRaises_error (hx e rfl)
  | ok a => exact onlyRaises_ok a

theorem onlyRaises_mapM {f : α → Except ε β} {l : List α} (h : ∀ a ∈ l, OnlyRaises P (f a)) :
    OnlyRaises P (l.mapM f) := by
  induction l with
  | nil => exact onlyRaises_ok []
  | cons a rest ih =>
    rw [List.forall_mem_cons] at h
    rw [List.mapM_cons]
    exact h.1.bind fun b _ => (ih h.2).bind fun others _ => onlyRaises_ok (b :: others)

end Raising

structure Checked {α ε : Type} (check : α → Except ε Unit) where
  val : α
  passed : check val = .ok ()

namespace Checked

variable {α ε : Type} {check : α → Except ε Unit}

theorem ext {c d : Checked check} (h : c.val = d.val) : c = d := by
  cases c; cases d; congr

instance [DecidableEq α] : DecidableEq (Checked check) := fun c d =>
  decidable_of_iff (c.val = d.val) ⟨ext, fun h => h ▸ rfl⟩

/-- The constructor: check the fields, then build the value or raise. -/
def make (check : α → Except ε Unit) (a : α) : Except ε (Checked check) :=
  match h : check a with
  | .ok () => .ok ⟨a, h⟩
  | .error e => .error e

theorem make_of_passed {a : α} (h : check a = .ok ()) : make check a = .ok ⟨a, h⟩ := by
  unfold make
  split
  · rfl
  · next e he => rw [h] at he; cases he

theorem make_of_raised {a : α} {e : ε} (h : check a = .error e) : make check a = .error e := by
  unfold make
  split
  · next he => rw [h] at he; cases he
  · next e' he => rw [h] at he; cases he; rfl

theorem make_eq_ok {a : α} {c : Checked check} : make check a = .ok c ↔ c.val = a := by
  constructor
  · intro h
    unfold make at h
    split at h
    · cases h; rfl
    · cases h
  · rintro rfl
    exact make_of_passed c.passed

end Checked
