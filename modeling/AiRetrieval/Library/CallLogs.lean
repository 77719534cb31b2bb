import AiRetrieval.Library.Programs

/-! Programs with their calls to the outside written down. A logged program does what the plain
one does; the rules here say of a composed program which calls it makes. -/

/-- A state with the calls made so far, in order. -/
structure CallLog (κ σ : Type) where
  world : σ
  calls : List κ

namespace CallLog

variable {κ σ ε α β : Type}

/-- Write a call down and make it. -/
def logged (call : κ) (x : Program ε σ α) : Program ε (CallLog κ σ) α :=
  ExceptT.mk fun s => ((x.exec s.world).1, ⟨(x.exec s.world).2, s.calls ++ [call]⟩)

/-- `x` does what `y` does, and what `P` says holds of the calls it writes down and of how it
ends. -/
def Logs (P : List κ → Except ε α → Prop) (x : Program ε (CallLog κ σ) α) (y : Program ε σ α) :
    Prop :=
  ∀ s, ∃ calls, x.exec s = ((y.exec s.world).1, ⟨(y.exec s.world).2, s.calls ++ calls⟩) ∧
    P calls (y.exec s.world).1

variable {P Q : List κ → Except ε α → Prop} {R : List κ → Except ε β → Prop}
  {x : Program ε (CallLog κ σ) α} {y : Program ε σ α}

theorem logs_pure {a : α} (h : P [] (.ok a)) :
    Logs P (pure a : Program ε (CallLog κ σ) α) (pure a : Program ε σ α) := by
  intro s
  refine ⟨[], ?_, h⟩
  rw [Program.exec_pure, Program.exec_pure, List.append_nil]

theorem logs_lift {r : Except ε α} (h : P [] r) :
    Logs P (liftM r : Program ε (CallLog κ σ) α) (liftM r : Program ε σ α) := by
  intro s
  refine ⟨[], ?_, h⟩
  rw [Program.exec_liftExcept, Program.exec_liftExcept, List.append_nil]

theorem logs_logged {call : κ} (h : ∀ r, P [call] r) : Logs P (logged call y) y :=
  fun _ => ⟨[call], rfl, h _⟩

/-- The calls of a sequence are those of its parts, one after the other. -/
theorem logs_bind {T : α → List κ → Except ε β → Prop} {f : α → Program ε (CallLog κ σ) β}
    {g : α → Program ε σ β} (hx : Logs P x y)
    (hf : ∀ a, (∃ calls, P calls (.ok a)) → Logs (T a) (f a) (g a))
    (herror : ∀ calls e, P calls (.error e) → R calls (.error e))
    (hok : ∀ calls later a r, P calls (.ok a) → T a later r → R (calls ++ later) r) :
    Logs R (x >>= f) (y >>= g) := by
  intro s
  obtain ⟨calls, hexec, hcalls⟩ := hx s
  rcases hy : y.exec s.world with ⟨e | a, w⟩
  · rw [hy] at hexec hcalls
    rw [Program.exec_bind_of_error hexec, Program.exec_bind_of_error hy]
    exact ⟨calls, rfl, herror calls e hcalls⟩
  · rw [hy] at hexec hcalls
    obtain ⟨later, hlater, hends⟩ := hf a ⟨calls, hcalls⟩ ⟨w, s.calls ++ calls⟩
    rw [Program.exec_bind_of_ok hexec, Program.exec_bind_of_ok hy, hlater, List.append_assoc]
    exact ⟨calls ++ later, rfl, hok calls later a _ hcalls hends⟩

end CallLog
