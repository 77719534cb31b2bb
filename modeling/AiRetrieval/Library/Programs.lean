import Mathlib.Order.RelClasses

/-! Programs over a mutable state that may raise. The state is returned on both
exits, so what was written before a raise stays written: this is the exception
semantics of imperative languages, not the transactional one. -/

/-- A program reading and writing `σ`, raising errors of type `ε`. -/
abbrev Program (ε σ α : Type) := ExceptT ε (StateM σ) α

namespace Program

variable {ε σ τ α β : Type}

/-- The outcome and the final state of a program started in `s`. -/
def exec (x : Program ε σ α) (s : σ) : Except ε α × σ := x.run.run s

/-- The final state of a program started in `s`, whether it returns or raises. -/
def after (x : Program ε σ α) (s : σ) : σ := (x.exec s).2

/-- Run a program on one component of a larger state. -/
def zoom (get : σ → τ) (set : σ → τ → σ) (x : Program ε τ α) : Program ε σ α :=
  ExceptT.mk (fun s => ((x.exec (get s)).1, set s (x.exec (get s)).2))

/-- Python's `try: x except E: h` for the errors `h` answers; the others pass. -/
def handling (x : Program ε σ α) (h : ε → Option (Program ε σ α)) : Program ε σ α :=
  tryCatch x (fun e => (h e).getD (throw e))

/-- Run a program and return how it ended, a raise included. -/
def attempt (x : Program ε σ α) : Program ε σ (Except ε α) :=
  ExceptT.mk (fun s => (.ok (x.exec s).1, (x.exec s).2))

/-- Run a program, naming what it raises anew. -/
def raising {ε' : Type} (f : ε → ε') (x : Program ε σ α) : Program ε' σ α :=
  ExceptT.mk (fun s => ((x.exec s).1.mapError f, (x.exec s).2))

@[simp] theorem exec_pure (a : α) (s : σ) : (pure a : Program ε σ α).exec s = (.ok a, s) := rfl

@[simp] theorem exec_throw (e : ε) (s : σ) :
    (throw e : Program ε σ α).exec s = (.error e, s) := rfl

@[simp] theorem exec_get (s : σ) : (get : Program ε σ σ).exec s = (.ok s, s) := rfl

@[simp] theorem exec_set (s t : σ) : (set t : Program ε σ PUnit).exec s = (.ok ⟨⟩, t) := rfl

@[simp] theorem exec_modify (f : σ → σ) (s : σ) :
    (modify f : Program ε σ PUnit).exec s = (.ok ⟨⟩, f s) := rfl

@[simp] theorem exec_liftExcept (r : Except ε α) (s : σ) :
    (liftM r : Program ε σ α).exec s = (r, s) := rfl

@[simp] theorem exec_zoom (get : σ → τ) (set : σ → τ → σ) (x : Program ε τ α) (s : σ) :
    (zoom get set x).exec s = ((x.exec (get s)).1, set s (x.exec (get s)).2) := rfl

@[simp] theorem exec_attempt (x : Program ε σ α) (s : σ) :
    (attempt x).exec s = (.ok (x.exec s).1, (x.exec s).2) := rfl

@[simp] theorem exec_raising {ε' : Type} (f : ε → ε') (x : Program ε σ α) (s : σ) :
    (raising f x).exec s = ((x.exec s).1.mapError f, (x.exec s).2) := rfl

theorem exec_bind (x : Program ε σ α) (f : α → Program ε σ β) (s : σ) :
    (x >>= f).exec s = match x.exec s with
      | (.ok a, t) => (f a).exec t
      | (.error e, t) => (.error e, t) := by
  simp only [exec, ExceptT.run_bind, StateT.run_bind]
  rcases x.run.run s with ⟨r, t⟩
  cases r <;> rfl

theorem exec_tryCatch (x : Program ε σ α) (h : ε → Program ε σ α) (s : σ) :
    (tryCatch x h).exec s = match x.exec s with
      | (.ok a, t) => (.ok a, t)
      | (.error e, t) => (h e).exec t := by
  change (ExceptT.tryCatch x h).run.run s = match StateT.run x s with
    | (.ok a, t) => (.ok a, t)
    | (.error e, t) => (h e).exec t
  simp only [ExceptT.tryCatch, ExceptT.run_mk, StateT.run_bind]
  rcases StateT.run x s with ⟨r, t⟩
  cases r <;> rfl

theorem exec_map (f : α → β) (x : Program ε σ α) (s : σ) :
    (f <$> x).exec s = ((x.exec s).1.map f, (x.exec s).2) := by
  rw [map_eq_pure_bind, exec_bind]
  rcases x.exec s with ⟨r, t⟩
  cases r <;> rfl

theorem exec_bind_of_ok {x : Program ε σ α} {f : α → Program ε σ β} {s t : σ} {a : α}
    (h : x.exec s = (.ok a, t)) : (x >>= f).exec s = (f a).exec t := by
  rw [exec_bind, h]

theorem exec_bind_of_error {x : Program ε σ α} {f : α → Program ε σ β} {s t : σ} {e : ε}
    (h : x.exec s = (.error e, t)) : (x >>= f).exec s = (.error e, t) := by
  rw [exec_bind, h]

theorem bind_returns {x : Program ε σ α} {f : α → Program ε σ β} {s u : σ} {b : β}
    (h : (x >>= f).exec s = (.ok b, u)) :
    ∃ a t, x.exec s = (.ok a, t) ∧ (f a).exec t = (.ok b, u) := by
  rcases hx : x.exec s with ⟨r, t⟩
  cases r with
  | error e => rw [exec_bind_of_error hx] at h; cases h
  | ok a => exact ⟨a, t, rfl, by rwa [exec_bind_of_ok hx] at h⟩

section Moves

variable {R : σ → σ → Prop}

/-- Every run of the program, returning or raising, moves the state along `R`. -/
def Moves (R : σ → σ → Prop) (x : Program ε σ α) : Prop := ∀ s, R s (x.after s)

theorem moves_pure [IsPreorder σ R] (a : α) : Moves R (pure a : Program ε σ α) :=
  fun s => refl_of R s

theorem moves_throw [IsPreorder σ R] (e : ε) : Moves R (throw e : Program ε σ α) :=
  fun s => refl_of R s

theorem moves_get [IsPreorder σ R] : Moves R (get : Program ε σ σ) := fun s => refl_of R s

theorem moves_lift [IsPreorder σ R] (r : Except ε α) : Moves R (liftM r : Program ε σ α) :=
  fun s => refl_of R s

theorem moves_modify {f : σ → σ} (h : ∀ s, R s (f s)) :
    Moves R (modify f : Program ε σ PUnit) := h

theorem moves_bind [IsPreorder σ R] {x : Program ε σ α} {f : α → Program ε σ β}
    (hx : Moves R x) (hf : ∀ a, Moves R (f a)) : Moves R (x >>= f) := by
  intro s
  have h1 := hx s
  unfold after at h1 ⊢
  rcases hs : x.exec s with ⟨r, t⟩
  rw [hs] at h1
  cases r with
  | error e => rwa [exec_bind_of_error hs]
  | ok a => rw [exec_bind_of_ok hs]; exact trans_of R h1 (hf a t)

theorem moves_map {x : Program ε σ α} (f : α → β) (hx : Moves R x) : Moves R (f <$> x) := by
  intro s
  have h := hx s
  unfold after at h ⊢
  rwa [exec_map]

theorem moves_tryCatch [IsPreorder σ R] {x : Program ε σ α} {h : ε → Program ε σ α}
    (hx : Moves R x) (hh : ∀ e, Moves R (h e)) : Moves R (tryCatch x h) := by
  intro s
  have h1 := hx s
  unfold after at h1 ⊢
  rw [exec_tryCatch]
  rcases hs : x.exec s with ⟨r, t⟩
  rw [hs] at h1
  cases r with
  | error e => exact trans_of R h1 (hh e t)
  | ok a => exact h1

theorem moves_handling [IsPreorder σ R] {x : Program ε σ α}
    {h : ε → Option (Program ε σ α)} (hx : Moves R x)
    (hh : ∀ e y, h e = some y → Moves R y) : Moves R (x.handling h) := by
  refine moves_tryCatch hx fun e => ?_
  cases he : h e with
  | none => exact moves_throw e
  | some y => exact hh e y he

/-- What holds after a body and is kept by its handlers holds after both. -/
theorem after_handling {x : Program ε σ α} {h : ε → Option (Program ε σ α)} {s : σ}
    {P : σ → Prop} (hx : P (x.after s)) (hh : ∀ e y t, h e = some y → P t → P (y.after t)) :
    P ((x.handling h).after s) := by
  unfold after at hx
  unfold handling after
  rw [exec_tryCatch]
  rcases hrun : x.exec s with ⟨e | a, t⟩
  · rw [hrun] at hx
    simp only
    cases he : h e with
    | none => exact hx
    | some y => exact hh e y t he hx
  · rw [hrun] at hx
    exact hx

theorem moves_attempt {x : Program ε σ α} (hx : Moves R x) : Moves R (attempt x) := hx

theorem moves_mono {S : σ → σ → Prop} {x : Program ε σ α} (hx : Moves S x)
    (h : ∀ s t, S s t → R s t) : Moves R x := fun s => h s _ (hx s)

theorem moves_mapM [IsPreorder σ R] {f : α → Program ε σ β} {l : List α}
    (h : ∀ a ∈ l, Moves R (f a)) : Moves R (l.mapM f) := by
  induction l with
  | nil => exact moves_pure _
  | cons a rest ih =>
    rw [List.mapM_cons]
    exact moves_bind (h a (List.mem_cons_self ..)) fun _ =>
      moves_bind (ih fun b hb => h b (List.mem_cons_of_mem a hb)) fun _ => moves_pure _

/-- A sequence moves along a composition that also holds its first part alone. -/
theorem moves_bind_comp {S T : σ → σ → Prop} {x : Program ε σ α} {f : α → Program ε σ β}
    (hx : Moves S x) (hf : ∀ a, Moves T (f a)) (hS : ∀ s t, S s t → R s t)
    (hST : ∀ s t u, S s t → T t u → R s u) : Moves R (x >>= f) := by
  intro s
  have h1 := hx s
  unfold after at h1 ⊢
  rcases hs : x.exec s with ⟨r, t⟩
  rw [hs] at h1
  cases r with
  | error e => rw [exec_bind_of_error hs]; exact hS _ _ h1
  | ok a => rw [exec_bind_of_ok hs]; exact hST _ _ _ h1 (hf a t)

/-- What follows and moves nothing leaves a state where the first part left it. -/
theorem after_bind_of_still {x : Program ε σ α} {f : α → Program ε σ β}
    (h : ∀ a, Moves Eq (f a)) (s : σ) : (x >>= f).after s = x.after s := by
  unfold after
  rcases hs : x.exec s with ⟨r, t⟩
  cases r with
  | error e => rw [exec_bind_of_error hs]
  | ok a => rw [exec_bind_of_ok hs]; exact (h a t).symm

/-- Where every end of the first part leads to `P`, so does the sequence. -/
theorem after_bind_of {P : σ → Prop} {x : Program ε σ α} {f : α → Program ε σ β} {s : σ}
    (hraise : ∀ e t, x.exec s = (.error e, t) → P t)
    (hreturn : ∀ a t, x.exec s = (.ok a, t) → P ((f a).after t)) : P ((x >>= f).after s) := by
  unfold after
  rcases hx : x.exec s with ⟨e | a, t⟩
  · rw [exec_bind_of_error hx]
    exact hraise e t hx
  · rw [exec_bind_of_ok hx]
    exact hreturn a t hx

/-- Two sequences that continue alike leave alike. -/
theorem after_bind_congr {γ : Type} (g : σ → γ) {x : Program ε σ α} {f f' : α → Program ε σ β}
    (h : ∀ a t, g ((f a).after t) = g ((f' a).after t)) (s : σ) :
    g ((x >>= f).after s) = g ((x >>= f').after s) := by
  unfold after
  rcases hx : x.exec s with ⟨e | a, t⟩
  · rw [exec_bind_of_error hx, exec_bind_of_error hx]
  · rw [exec_bind_of_ok hx, exec_bind_of_ok hx]
    exact h a t

theorem moves_ite {p : Prop} [Decidable p] {x y : Program ε σ α}
    (hx : Moves R x) (hy : Moves R y) : Moves R (if p then x else y) := by
  split
  · exact hx
  · exact hy

end Moves

section Yields

variable {Q : σ → α → σ → Prop}

/-- Whenever a run of the program returns, `Q` holds of where it started, of what it
returned and of where it ended. -/
def Yields (Q : σ → α → σ → Prop) (x : Program ε σ α) : Prop :=
  ∀ s a t, x.exec s = (.ok a, t) → Q s a t

theorem yields_pure {a : α} (h : ∀ s, Q s a s) : Yields Q (pure a : Program ε σ α) := by
  intro s b t hs
  cases hs
  exact h s

theorem yields_throw (e : ε) : Yields Q (throw e : Program ε σ α) := fun _ _ _ hs => nomatch hs

theorem yields_lift (x : Except ε α) :
    Yields (fun _ a _ => x = .ok a) (liftM x : Program ε σ α) :=
  fun _ _ _ hs => congrArg Prod.fst hs

theorem yields_bind {P : σ → β → σ → Prop} {x : Program ε σ β} {f : β → Program ε σ α}
    (hx : Yields P x) (hf : ∀ b, Yields (fun t a u => ∀ s, P s b t → Q s a u) (f b)) :
    Yields Q (x >>= f) := by
  intro s a u hs
  obtain ⟨b, t, hxs, hfs⟩ := bind_returns hs
  exact hf b t a u hfs s (hx s b t hxs)

theorem yields_after {R : σ → σ → Prop} {x : Program ε σ β} {f : β → Program ε σ α}
    (hx : Moves R x) (hf : ∀ b, Yields Q (f b)) (h : ∀ s t a u, R s t → Q t a u → Q s a u) :
    Yields Q (x >>= f) := by
  intro s a u hs
  obtain ⟨b, t, hxs, hfs⟩ := bind_returns hs
  refine h s t a u ?_ (hf b t a u hfs)
  have hmove := hx s
  rwa [after, hxs] at hmove

theorem yields_ite {p : Prop} [Decidable p] {x y : Program ε σ α}
    (hx : Yields Q x) (hy : Yields Q y) : Yields Q (if p then x else y) := by
  split
  · exact hx
  · exact hy

end Yields

section Returns

variable {Q : α → σ → Prop} {P : β → σ → Prop}

/-- A run from `s` returns, with `Q` of what it returns and of where it ends. -/
def Returns (Q : α → σ → Prop) (x : Program ε σ α) (s : σ) : Prop :=
  ∃ a t, x.exec s = (.ok a, t) ∧ Q a t

def Raises (x : Program ε σ α) (s : σ) : Prop := ∃ e t, x.exec s = (.error e, t)

theorem returns_pure {a : α} {s : σ} (h : Q a s) : Returns Q (pure a : Program ε σ α) s :=
  ⟨a, s, rfl, h⟩

theorem returns_lift {x : Except ε α} {a : α} {s : σ} (hx : x = .ok a) (h : Q a s) :
    Returns Q (liftM x : Program ε σ α) s := by
  subst hx
  exact ⟨a, s, rfl, h⟩

theorem raises_lift {x : Except ε α} {s : σ} (hx : ¬∃ a, x = .ok a) :
    Raises (liftM x : Program ε σ α) s := by
  cases x with
  | error e => exact ⟨e, s, rfl⟩
  | ok a => exact absurd ⟨a, rfl⟩ hx

theorem raises_throw (e : ε) (s : σ) : Raises (throw e : Program ε σ α) s := ⟨e, s, rfl⟩

theorem returns_bind {x : Program ε σ β} {f : β → Program ε σ α} {s : σ} (hx : Returns P x s)
    (hf : ∀ b t, P b t → Returns Q (f b) t) : Returns Q (x >>= f) s := by
  obtain ⟨b, t, hxs, hP⟩ := hx
  obtain ⟨a, u, hfs, hQ⟩ := hf b t hP
  exact ⟨a, u, by rw [exec_bind_of_ok hxs, hfs], hQ⟩

theorem raises_bind {x : Program ε σ β} {f : β → Program ε σ α} {s : σ} (hx : Raises x s) :
    Raises (x >>= f) s := by
  obtain ⟨e, t, hxs⟩ := hx
  exact ⟨e, t, exec_bind_of_error hxs⟩

theorem raises_after {x : Program ε σ β} {f : β → Program ε σ α} {s : σ} (hx : Returns P x s)
    (hf : ∀ b t, P b t → Raises (f b) t) : Raises (x >>= f) s := by
  obtain ⟨b, t, hxs, hP⟩ := hx
  obtain ⟨e, u, hfs⟩ := hf b t hP
  exact ⟨e, u, by rw [exec_bind_of_ok hxs, hfs]⟩

theorem returns_mono {x : Program ε σ α} {s : σ} {Q' : α → σ → Prop} (hx : Returns Q x s)
    (h : ∀ a t, Q a t → Q' a t) : Returns Q' x s := by
  obtain ⟨a, t, hxs, hQ⟩ := hx
  exact ⟨a, t, hxs, h a t hQ⟩

theorem Raises.not_returns {x : Program ε σ α} {s : σ} (h : Raises x s) : ¬Returns Q x s := by
  rintro ⟨a, t, ha, -⟩
  obtain ⟨e, u, he⟩ := h
  rw [he] at ha
  cases ha

end Returns

section RunAlike

variable {γ δ : Type} {R : α → β → Prop} {S : γ → δ → Prop}

/-- Two ends are alike: both returned, what `R` relates, or both raised the same. -/
inductive EndsAlike (R : α → β → Prop) : Except ε α → Except ε β → Prop where
  | ok {a : α} {b : β} (h : R a b) : EndsAlike R (.ok a) (.ok b)
  | error (e : ε) : EndsAlike R (.error e) (.error e)

/-- From whatever states they start, the runs of two programs end alike. -/
def RunAlike (R : α → β → Prop) (x : Program ε σ α) (y : Program ε τ β) : Prop :=
  ∀ s t, EndsAlike R (x.exec s).1 (y.exec t).1

theorem runAlike_pure {a : α} {b : β} (h : R a b) :
    RunAlike R (pure a : Program ε σ α) (pure b : Program ε τ β) := fun _ _ => .ok h

theorem runAlike_lift {x : Except ε α} {y : Except ε β} (h : EndsAlike R x y) :
    RunAlike R (liftM x : Program ε σ α) (liftM y : Program ε τ β) := fun _ _ => h

theorem endsAlike_refl {R : α → α → Prop} (h : ∀ a, R a a) (x : Except ε α) :
    EndsAlike R x x := by
  cases x with
  | error e => exact .error e
  | ok a => exact .ok (h a)

theorem runAlike_bind {x : Program ε σ α} {y : Program ε τ β} {f : α → Program ε σ γ}
    {g : β → Program ε τ δ} (h : RunAlike R x y) (hf : ∀ a b, R a b → RunAlike S (f a) (g b)) :
    RunAlike S (x >>= f) (y >>= g) := by
  intro s t
  have hends := h s t
  rw [exec_bind, exec_bind]
  rcases hx : x.exec s with ⟨r, s'⟩
  rcases hy : y.exec t with ⟨r', t'⟩
  rw [hx, hy] at hends
  cases hends with
  | ok hR => exact hf _ _ hR s' t'
  | error e => exact .error e

end RunAlike

end Program
