import Mathlib.Algebra.BigOperators.Group.List.Basic
import Mathlib.Algebra.Order.BigOperators.Group.List
import Mathlib.Data.List.TakeWhile
import Mathlib.Algebra.Order.Ring.Nat
import Mathlib.Order.Lattice

/-! Logs of stamped entries under a limit on every window. The window that ends at `t`
begins after `back t`; a queue prunes what has left the window lazily, only when it is
looked at. -/

namespace SlidingWindows

variable {τ ε : Type} [LinearOrder τ] (stamp : ε → τ) (back : τ → τ)

def window (t : τ) (log : List ε) : List ε :=
  log.filter fun e => back t < stamp e ∧ stamp e ≤ t

/-- The weights of the entries in every window total at most `bound`. -/
def Bounded (weight : ε → Nat) (bound : Nat) (log : List ε) : Prop :=
  ∀ t, ((window stamp back t log).map weight).sum ≤ bound

/-- `queue` is the log without entries that had left the window by `now`. -/
def Pruned (now : τ) (log queue : List ε) : Prop :=
  ∃ dropped, log = dropped ++ queue ∧ ∀ e ∈ dropped, stamp e ≤ back now

/-- Take off the front what has left the window by `now`. -/
def prune (now : τ) (queue : List ε) : List ε := queue.dropWhile fun e => stamp e ≤ back now

variable {stamp back} {now later : τ} {log queue : List ε} {weight : ε → Nat} {bound : Nat}

theorem filter_sublist_of_imp {l : List ε} {p q : ε → Bool}
    (h : ∀ e ∈ l, p e = true → q e = true) : (l.filter p).Sublist (l.filter q) := by
  have hsplit : l.filter p = (l.filter q).filter p := by
    rw [List.filter_filter]
    refine List.filter_congr fun e he => ?_
    cases hp : p e with
    | false => rfl
    | true => rw [h e he hp]; rfl
  rw [hsplit]
  exact List.filter_sublist

theorem Pruned.refl (now : τ) (log : List ε) : Pruned stamp back now log log :=
  ⟨[], rfl, fun _ h => by cases h⟩

theorem Pruned.mono (hback : Monotone back) (hle : now ≤ later)
    (h : Pruned stamp back now log queue) : Pruned stamp back later log queue := by
  obtain ⟨dropped, hlog, hold⟩ := h
  exact ⟨dropped, hlog, fun e he => (hold e he).trans (hback hle)⟩

theorem Pruned.append (h : Pruned stamp back now log queue) (e : ε) :
    Pruned stamp back now (log ++ [e]) (queue ++ [e]) := by
  obtain ⟨dropped, rfl, hold⟩ := h
  exact ⟨dropped, List.append_assoc .., hold⟩

theorem Pruned.prune (h : Pruned stamp back now log queue) :
    Pruned stamp back now log (prune stamp back now queue) := by
  obtain ⟨dropped, rfl, hold⟩ := h
  refine ⟨dropped ++ queue.takeWhile fun e => stamp e ≤ back now, ?_, ?_⟩
  · rw [List.append_assoc, SlidingWindows.prune, List.takeWhile_append_dropWhile]
  · intro e he
    rw [List.mem_append] at he
    rcases he with he | he
    · exact hold e he
    · have hleft := List.mem_takeWhile_imp he
      simpa using hleft

/-- In a log in order, pruning the front leaves nothing older than the window. -/
theorem prune_recent (hsorted : log.Pairwise fun a b => stamp a ≤ stamp b) :
    ∀ e ∈ prune stamp back now log, back now < stamp e := by
  induction log with
  | nil => intro e he; cases he
  | cons first rest ih =>
    rw [List.pairwise_cons] at hsorted
    intro e he
    unfold prune at he
    rw [List.dropWhile_cons] at he
    split at he
    · exact ih hsorted.2 e he
    · next hfirst =>
      have hlt : back now < stamp first := by simpa using hfirst
      rw [List.mem_cons] at he
      rcases he with rfl | he
      · exact hlt
      · exact lt_of_lt_of_le hlt (hsorted.1 e he)

theorem Pruned.eq_filter (h : Pruned stamp back now log queue)
    (hsorted : log.Pairwise fun a b => stamp a ≤ stamp b) :
    SlidingWindows.prune stamp back now queue = log.filter fun e => back now < stamp e := by
  obtain ⟨dropped, hlog, hold⟩ := h.prune
  have hqueue : queue.Pairwise fun a b => stamp a ≤ stamp b := by
    obtain ⟨before, rfl, -⟩ := h
    exact (List.pairwise_append.1 hsorted).2.1
  have hnone : dropped.filter (fun e => back now < stamp e) = [] := by
    rw [List.filter_eq_nil_iff]
    intro e he
    simpa using hold e he
  rw [hlog, List.filter_append, hnone, List.nil_append]
  symm
  rw [List.filter_eq_self]
  intro e he
  simpa using prune_recent hqueue e he

theorem Bounded.append (hback : Monotone back) {e : ε}
    (hfit : ((log.filter fun f => back (stamp e) < stamp f).map weight).sum + weight e ≤ bound)
    (h : Bounded stamp back weight bound log) :
    Bounded stamp back weight bound (log ++ [e]) := by
  intro t
  by_cases hlate : stamp e ≤ t
  · -- a window that ends after the entry holds no more than the entry's own
    have hsub : (window stamp back t log).Sublist
        (log.filter fun f => back (stamp e) < stamp f) := by
      apply List.monotone_filter_right
      intro f hf
      simp only [decide_eq_true_eq] at hf ⊢
      exact lt_of_le_of_lt (hback hlate) hf.1
    have hle := (hsub.map weight).sum_le_sum fun _ _ => Nat.zero_le _
    have hlast : ((window stamp back t [e]).map weight).sum ≤ weight e := by
      unfold window
      rw [List.filter_cons]
      split <;> simp
    have hsplit : window stamp back t (log ++ [e]) =
        window stamp back t log ++ window stamp back t [e] := List.filter_append ..
    rw [hsplit, List.map_append, List.sum_append]
    omega
  · have hnone : window stamp back t (log ++ [e]) = window stamp back t log := by
      unfold window
      rw [List.filter_append, List.filter_cons, if_neg (by simp [hlate])]
      exact List.append_nil _
    rw [hnone]
    exact h t

end SlidingWindows
