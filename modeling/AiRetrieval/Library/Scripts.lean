import AiRetrieval.Library.Histories
import AiRetrieval.Library.Programs

/-! Scripts interleaved over one shared state. A script is the steps of a `try` block and those
of its `finally` block. Between any two steps other scripts may run, and an error from outside
may reach a script that is in its `try` block. -/

/-- A script under way over shared state `σ`, with locals `ℓ`. -/
structure Script (ε σ ℓ : Type) where
  body : List (Program ε (σ × ℓ) Unit)
  cleanup : List (Program ε (σ × ℓ) Unit)
  locals : ℓ
  raised : Option ε := none

namespace Script

variable {ε σ ℓ : Type}

def Ended (r : Script ε σ ℓ) : Prop := r.body = [] ∧ r.cleanup = []

/-- One step, of the `try` block or else of the `finally` block; a raise leaves its block. -/
def step (r : Script ε σ ℓ) (s : σ) : Script ε σ ℓ × σ :=
  match r.body, r.cleanup with
  | x :: rest, _ =>
    match x.exec (s, r.locals) with
    | (.ok _, t) => ({ r with body := rest, locals := t.2 }, t.1)
    | (.error e, t) => ({ r with body := [], locals := t.2, raised := some e }, t.1)
  | [], x :: rest =>
    match x.exec (s, r.locals) with
    | (.ok _, t) => ({ r with cleanup := rest, locals := t.2 }, t.1)
    | (.error e, t) => ({ r with cleanup := [], locals := t.2, raised := some e }, t.1)
  | [], [] => (r, s)

/-- An error from outside, which leaves the `try` block. -/
def interrupt (r : Script ε σ ℓ) (e : ε) : Script ε σ ℓ :=
  match r.body with
  | [] => r
  | _ :: _ => { r with body := [], raised := some e }

variable {r : Script ε σ ℓ} {s t : σ} {locals : ℓ} {x : Program ε (σ × ℓ) Unit}
  {rest : List (Program ε (σ × ℓ) Unit)}

theorem step_body_ok (hb : r.body = x :: rest) (hx : x.exec (s, r.locals) = (.ok (), (t, locals))) :
    r.step s = ({ r with body := rest, locals := locals }, t) := by
  unfold step
  rw [hb]
  simp only [hx]

theorem step_body_error {e : ε} (hb : r.body = x :: rest)
    (hx : x.exec (s, r.locals) = (.error e, (t, locals))) :
    r.step s = ({ r with body := [], locals := locals, raised := some e }, t) := by
  unfold step
  rw [hb]
  simp only [hx]

theorem step_cleanup_ok (hb : r.body = []) (hc : r.cleanup = x :: rest)
    (hx : x.exec (s, r.locals) = (.ok (), (t, locals))) :
    r.step s = ({ r with cleanup := rest, locals := locals }, t) := by
  unfold step
  rw [hb, hc]
  simp only [hx]

theorem step_ended (hr : r.Ended) : r.step s = (r, s) := by
  unfold step
  rw [hr.1, hr.2]

end Script

/-- A shared state and the scripts that run over it. -/
structure Scripts (ε σ ℓ : Type) where
  shared : σ
  scripts : List (Script ε σ ℓ)

namespace Scripts

variable {ε σ ℓ κ ω : Type}

/-- A scheduling choice: start a script, step or interrupt one, or act from outside. -/
inductive Move (κ ω ε : Type) where
  | start (code : κ)
  | step (index : Nat)
  | interrupt (index : Nat) (error : ε)
  | outside (call : ω)

/-- The scripts named by `κ`, under a scheduler and an outside that acts on the shared state. -/
def machine (code : κ → Script ε σ ℓ) (outside : ω → σ → σ) :
    Machine (Move κ ω ε) Unit (Scripts ε σ ℓ) := fun move s =>
  match move with
  | .start k => ((), { s with scripts := s.scripts ++ [code k] })
  | .step index =>
    match s.scripts[index]? with
    | some r => ((), ⟨(r.step s.shared).2, s.scripts.set index (r.step s.shared).1⟩)
    | none => ((), s)
  | .interrupt index error =>
    match s.scripts[index]? with
    | some r => ((), { s with scripts := s.scripts.set index (r.interrupt error) })
    | none => ((), s)
  | .outside call => ((), { s with shared := outside call s.shared })

/-- `I` holds of the shared state, `A` of each script with it and `D` of any two scripts. -/
structure Invariant (I : σ → Prop) (A : Script ε σ ℓ → σ → Prop)
    (D : Script ε σ ℓ → Script ε σ ℓ → Prop) (s : Scripts ε σ ℓ) : Prop where
  shared : I s.shared
  each : ∀ (i : Nat) r, s.scripts[i]? = some r → A r s.shared
  apart : ∀ (i j : Nat) r q, i ≠ j → s.scripts[i]? = some r → s.scripts[j]? = some q → D r q

/-- What each move has to keep: a step keeps the assertion of its own script and, for scripts
kept apart from it, the assertions of the others. -/
structure Keeps (code : κ → Script ε σ ℓ) (outside : ω → σ → σ) (I : σ → Prop)
    (A : Script ε σ ℓ → σ → Prop) (D : Script ε σ ℓ → Script ε σ ℓ → Prop) : Prop where
  symm : ∀ {r q}, D r q → D q r
  start : ∀ {s} k, I s → A (code k) s ∧ ∀ q, D (code k) q
  step : ∀ {s r}, I s → A r s → I (r.step s).2 ∧ A (r.step s).1 (r.step s).2
  others : ∀ {s r q}, I s → A r s → A q s → D r q → A q (r.step s).2 ∧ D (r.step s).1 q
  interrupt : ∀ {s r} e, A r s → A (r.interrupt e) s ∧ ∀ q, D r q → D (r.interrupt e) q
  outside : ∀ {s} w, I s → I (outside w s) ∧ ∀ r, A r s → A r (outside w s)

section Rules

variable {code : κ → Script ε σ ℓ} {outside : ω → σ → σ} {I : σ → Prop}
  {A : Script ε σ ℓ → σ → Prop} {D : Script ε σ ℓ → Script ε σ ℓ → Prop}

/-- One script is replaced, the shared state moves, and all the rest stays as it was. -/
theorem Invariant.replaced {s : Scripts ε σ ℓ} (h : Invariant I A D s)
    (hsymm : ∀ {r q}, D r q → D q r) {index : Nat} {r r' : Script ε σ ℓ} {shared : σ}
    (hr : s.scripts[index]? = some r) (hshared : I shared) (hown : A r' shared)
    (hothers : ∀ q, A q s.shared → D r q → A q shared ∧ D r' q) :
    Invariant I A D ⟨shared, s.scripts.set index r'⟩ := by
  have hlt : index < s.scripts.length := (List.getElem?_eq_some_iff.1 hr).1
  have hself : (s.scripts.set index r')[index]? = some r' := List.getElem?_set_self hlt
  have hother (i : Nat) (hne : index ≠ i) : (s.scripts.set index r')[i]? = s.scripts[i]? :=
    List.getElem?_set_ne hne
  refine ⟨hshared, ?_, ?_⟩
  · intro i q hq
    by_cases hi : index = i
    · subst hi
      obtain rfl : r' = q := Option.some.inj (hself.symm.trans hq)
      exact hown
    · rw [hother i hi] at hq
      exact (hothers q (h.each i q hq) (h.apart index i r q hi hr hq)).1
  · intro i j p q hij hp hq
    by_cases hi : index = i
    · subst hi
      obtain rfl : r' = p := Option.some.inj (hself.symm.trans hp)
      rw [hother j hij] at hq
      exact (hothers q (h.each j q hq) (h.apart index j r q hij hr hq)).2
    · rw [hother i hi] at hp
      by_cases hj : index = j
      · subst hj
        obtain rfl : r' = q := Option.some.inj (hself.symm.trans hq)
        exact hsymm (hothers p (h.each i p hp) (h.apart index i r p hi hr hp)).2
      · rw [hother j hj] at hq
        exact h.apart i j p q hij hp hq

theorem Invariant.move (hk : Keeps code outside I A D) {s : Scripts ε σ ℓ}
    (h : Invariant I A D s) (move : Move κ ω ε) :
    Invariant I A D (machine code outside move s).2 := by
  cases move with
  | start k =>
    obtain ⟨hnew, hapart⟩ := hk.start k h.shared
    refine ⟨h.shared, ?_, ?_⟩
    · intro i r hr
      rcases List.mem_append.1 (List.mem_of_getElem? hr) with hmem | hmem
      · obtain ⟨j, hj⟩ := List.mem_iff_getElem?.1 hmem
        exact h.each j r hj
      · rw [List.mem_singleton] at hmem
        subst hmem
        exact hnew
    · intro i j r q hij hr hq
      -- at most one of the two is the new script
      replace hr : (s.scripts ++ [code k])[i]? = some r := hr
      replace hq : (s.scripts ++ [code k])[j]? = some q := hq
      by_cases hi : i < s.scripts.length
      · by_cases hj : j < s.scripts.length
        · rw [List.getElem?_append_left hi] at hr
          rw [List.getElem?_append_left hj] at hq
          exact h.apart i j r q hij hr hq
        · rw [List.getElem?_append_right (Nat.le_of_not_lt hj)] at hq
          obtain rfl := List.mem_singleton.1 (List.mem_of_getElem? hq)
          exact hk.symm (hapart r)
      · rw [List.getElem?_append_right (Nat.le_of_not_lt hi)] at hr
        obtain rfl := List.mem_singleton.1 (List.mem_of_getElem? hr)
        exact hapart q
  | step index =>
    simp only [machine]
    cases hr : s.scripts[index]? with
    | none => exact h
    | some r =>
      have hown := h.each index r hr
      obtain ⟨hshared, hkept⟩ := hk.step h.shared hown
      exact h.replaced hk.symm hr hshared hkept fun q hq hd => hk.others h.shared hown hq hd
  | interrupt index error =>
    simp only [machine]
    cases hr : s.scripts[index]? with
    | none => exact h
    | some r =>
      obtain ⟨hown, hapart⟩ := hk.interrupt error (h.each index r hr)
      exact h.replaced hk.symm hr h.shared hown fun q hq hd => ⟨hq, hapart q hd⟩
  | outside call =>
    obtain ⟨hshared, hkept⟩ := hk.outside call h.shared
    exact ⟨hshared, fun i r hr => hkept r (h.each i r hr), h.apart⟩

theorem run_invariant (hk : Keeps code outside I A D) {shared : σ} (h : I shared)
    (moves : List (Move κ ω ε)) :
    Invariant I A D ((machine code outside).run ⟨shared, []⟩ moves) := by
  apply Machine.run_invariant (fun move s hs => hs.move hk move)
  refine ⟨h, ?_, ?_⟩
  · intro i r hr
    cases hr
  · intro i j r q _ hr
    cases hr

end Rules

end Scripts
