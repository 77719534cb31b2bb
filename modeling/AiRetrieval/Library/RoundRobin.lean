import Mathlib.Data.List.Nodup
import Mathlib.Data.List.Perm.Basic
import Mathlib.Data.List.Sublists

/-! Turns over a queue of keys. The turns are read off the queue each time: its keys in the
order they are first met, started behind the key that went last. Nothing else is remembered,
so who is ahead of whom can change with the queue; the rules here say when it does not. -/

namespace RoundRobin

variable {τ : Type} [DecidableEq τ]

/-- The order, started behind the one that went last. -/
def startedAfter (order : List τ) : Option τ → List τ
  | none => order
  | some last =>
    if last ∈ order then
      order.drop (order.idxOf last + 1) ++ order.take (order.idxOf last + 1)
    else order

def turns (queue : List τ) (last : Option τ) : List τ := startedAfter queue.eraseDups last

/-- The one whose turn it is leaves the others in the order they were in. -/
def KeepsTurns (queue : List τ) (last : Option τ) : Prop :=
  ∀ first ∈ (turns queue last).head?,
    (turns (queue.erase first) (some first)).filter (· ≠ first) = (turns queue last).tail

/-- One who was not waiting goes behind all who were, save the one that went last. -/
def JoinsBehind (queue : List τ) (last : Option τ) (new : τ) : Prop :=
  new ∉ queue → ∀ waiting ∈ queue, last ≠ some waiting →
    [waiting, new].Sublist (turns (queue ++ [new]) last)

instance (queue : List τ) (last : Option τ) : Decidable (KeepsTurns queue last) :=
  inferInstanceAs (Decidable (∀ first ∈ (turns queue last).head?, _))

instance (queue : List τ) (last : Option τ) (new : τ) :
    Decidable (JoinsBehind queue last new) :=
  inferInstanceAs (Decidable (_ → ∀ waiting ∈ queue, _ → _))

/-- `y` has its turn before `x` has one. -/
def Ahead (queue : List τ) (last : Option τ) (y x : τ) : Prop :=
  x ∉ queue ∨ [y, x].Sublist (turns queue last)

theorem nodup_eraseDups (l : List τ) : l.eraseDups.Nodup := by
  induction hn : l.length using Nat.strongRecOn generalizing l with
  | ind n ih =>
    cases l with
    | nil => exact List.nodup_nil
    | cons a rest =>
      rw [List.eraseDups_cons, List.nodup_cons, List.mem_eraseDups]
      refine ⟨by simp, ih _ ?_ _ rfl⟩
      have hle := List.length_filter_le (fun b => !b == a) rest
      rw [List.length_cons] at hn
      omega

/-- One who waits already changes nothing, one who does not comes last. -/
theorem eraseDups_concat (queue : List τ) (new : τ) : (queue ++ [new]).eraseDups =
    if new ∈ queue then queue.eraseDups else queue.eraseDups ++ [new] := by
  rw [List.eraseDups_append]
  by_cases h : new ∈ queue
  · simp [h, List.removeAll]
  · simp [h, List.removeAll, List.eraseDups_cons]

theorem startedAfter_perm (order : List τ) (last : Option τ) :
    (startedAfter order last).Perm order := by
  cases last with
  | none => exact List.Perm.refl order
  | some last =>
    simp only [startedAfter]
    split
    · have h : (order.drop (order.idxOf last + 1) ++ order.take (order.idxOf last + 1)).Perm
          (order.take (order.idxOf last + 1) ++ order.drop (order.idxOf last + 1)) :=
        List.perm_append_comm
      rwa [List.take_append_drop] at h
    · exact List.Perm.refl order

theorem nodup_turns (queue : List τ) (last : Option τ) : (turns queue last).Nodup :=
  (startedAfter_perm _ last).nodup_iff.2 (nodup_eraseDups queue)

@[simp] theorem mem_turns {queue : List τ} {last : Option τ} {x : τ} :
    x ∈ turns queue last ↔ x ∈ queue := by
  rw [turns, (startedAfter_perm _ last).mem_iff, List.mem_eraseDups]

theorem not_ahead_of_first {queue : List τ} {last : Option τ} {x y : τ} (hne : y ≠ x)
    (hfirst : (turns queue last).head? = some x) : ¬Ahead queue last y x := by
  rintro (hx | hsub)
  · exact hx (mem_turns.1 (List.mem_of_mem_head? hfirst))
  · have hnodup := nodup_turns queue last
    cases hturns : turns queue last with
    | nil => rw [hturns] at hfirst; cases hfirst
    | cons first rest =>
      rw [hturns] at hfirst hsub hnodup
      cases hfirst
      have hrest : [y, x].Sublist rest := List.Sublist.of_cons_of_ne hne hsub
      exact (List.nodup_cons.1 hnodup).1 (hrest.subset (by simp))

/-- The one that just went is last, if it still waits: all others are ahead of it. -/
theorem ahead_of_last {queue : List τ} {x y : τ} (hy : y ∈ queue) (hne : y ≠ x) :
    Ahead queue (some x) y x := by
  by_cases hx : x ∈ queue
  · refine Or.inr ?_
    have hmem : x ∈ queue.eraseDups := List.mem_eraseDups.2 hx
    have hlt := List.idxOf_lt_length_of_mem hmem
    have hturns : turns queue (some x) = queue.eraseDups.drop (queue.eraseDups.idxOf x + 1) ++
        queue.eraseDups.take (queue.eraseDups.idxOf x) ++ [x] := by
      have htake := List.take_append_getElem hlt
      rw [List.getElem_idxOf hlt] at htake
      rw [turns, startedAfter, if_pos hmem, ← htake, List.append_assoc]
    have hmemY : y ∈ turns queue (some x) := mem_turns.2 hy
    rw [hturns, List.mem_append] at hmemY
    rw [hturns]
    rcases hmemY with hmemY | hmemY
    · exact (List.singleton_sublist.2 hmemY).append (List.Sublist.refl [x])
    · exact absurd (List.mem_singleton.1 hmemY) hne
  · exact Or.inl hx

theorem Ahead.kept {queue : List τ} {last : Option τ} {x y z : τ} (h : Ahead queue last y x)
    (hkeeps : KeepsTurns queue last) (hfirst : (turns queue last).head? = some z)
    (hy : z ≠ y) : Ahead (queue.erase z) (some z) y x := by
  rcases h with h | h
  · exact Or.inl fun hmem => h (List.mem_of_mem_erase hmem)
  · refine Or.inr ?_
    have hsame := hkeeps z hfirst
    cases hturns : turns queue last with
    | nil => rw [hturns] at hfirst; cases hfirst
    | cons first rest =>
      rw [hturns] at hfirst hsame h
      cases hfirst
      have hrest : [y, x].Sublist rest := List.Sublist.of_cons_of_ne hy.symm h
      rw [List.tail_cons] at hsame
      rw [← hsame] at hrest
      exact hrest.trans List.filter_sublist

/-- The turns of those who wait keep their order when one more joins. -/
theorem turns_sublist (queue : List τ) (last : Option τ) (new : τ) :
    (turns queue last).Sublist (turns (queue ++ [new]) last) := by
  rw [turns, turns, eraseDups_concat]
  split
  · exact List.Sublist.refl _
  · next hnew =>
    have hnotin : new ∉ queue.eraseDups := fun h => hnew (List.mem_eraseDups.1 h)
    generalize queue.eraseDups = order at hnotin ⊢
    cases last with
    | none => exact List.sublist_append_left ..
    | some last =>
      simp only [startedAfter]
      by_cases hlast : last ∈ order
      · have hlt := List.idxOf_lt_length_of_mem hlast
        rw [if_pos hlast, if_pos (List.mem_append_left _ hlast), List.idxOf_append,
          if_pos hlast, List.drop_append_of_le_length (by omega),
          List.take_append_of_le_length (by omega)]
        exact (List.sublist_append_left ..).append (List.Sublist.refl _)
      · rw [if_neg hlast]
        by_cases hsame : last = new
        · have hidx : (order ++ [new]).idxOf last + 1 = (order ++ [new]).length := by
            rw [List.idxOf_append, if_neg hlast, hsame]
            simp
          rw [if_pos (by simp [hsame]), hidx, List.drop_length, List.take_length]
          exact List.sublist_append_left ..
        · rw [if_neg (by simp [hlast, hsame])]
          exact List.sublist_append_left ..

theorem Ahead.joined {queue : List τ} {last : Option τ} {x y new : τ} (h : Ahead queue last y x)
    (hjoins : new = x → JoinsBehind queue last new) (hy : y ∈ queue) (hlast : last ≠ some y) :
    Ahead (queue ++ [new]) last y x := by
  rcases h with h | h
  · by_cases hx : x = new
    · subst hx
      exact Or.inr (hjoins rfl h y hy hlast)
    · refine Or.inl fun hmem => ?_
      rcases List.mem_append.1 hmem with hmem | hmem
      · exact h hmem
      · exact hx (List.mem_singleton.1 hmem)
  · exact Or.inr (h.trans (turns_sublist queue last new))

end RoundRobin
