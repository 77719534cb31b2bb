import Mathlib.Data.List.Perm.Basic
import Mathlib.Data.List.Nodup

/-! Grouping a list by a key with finitely many values. -/

namespace Grouping

variable {α κ : Type} [DecidableEq κ] (f : α → κ)

/-- The groups of distinct keys, one after another, are the elements with those keys. -/
theorem flatMap_filter_perm {keys : List κ} (hkeys : keys.Nodup) (l : List α) :
    (keys.flatMap fun k => l.filter fun a => f a = k).Perm (l.filter fun a => f a ∈ keys) := by
  induction keys with
  | nil => simp
  | cons k rest ih =>
    rw [List.nodup_cons] at hkeys
    have hsplit := List.filter_append_perm (fun a => decide (f a = k))
      (l.filter fun a => f a ∈ k :: rest)
    rw [List.filter_filter, List.filter_filter] at hsplit
    have hfirst : ∀ a, (decide (f a = k) && decide (f a ∈ k :: rest)) = decide (f a = k) := by
      intro a
      by_cases h : f a = k <;> simp [h]
    have hlater : ∀ a, (!decide (f a = k) && decide (f a ∈ k :: rest)) = decide (f a ∈ rest) := by
      intro a
      by_cases h : f a = k
      · simp [h, hkeys.1]
      · simp [h]
    simp only [hfirst, hlater] at hsplit
    rw [List.flatMap_cons]
    exact ((ih hkeys.2).append_left _).trans hsplit

theorem flatMap_filter_perm_all {keys : List κ} (hkeys : keys.Nodup) (hall : ∀ k, k ∈ keys)
    (l : List α) : (keys.flatMap fun k => l.filter fun a => f a = k).Perm l := by
  have h := flatMap_filter_perm f hkeys l
  rwa [List.filter_eq_self.2 fun a _ => decide_eq_true (hall (f a))] at h

/-- Mapping each group to a permutation of its image gives the image, permuted. -/
theorem flatMap_groups_perm {β : Type} {keys : List κ} (hkeys : keys.Nodup)
    (hall : ∀ k, k ∈ keys) (l : List α) (g : α → β) (group : κ → List β)
    (hgroup : ∀ k, (group k).Perm ((l.filter fun a => f a = k).map g)) :
    (keys.flatMap group).Perm (l.map g) := by
  refine (List.Perm.flatMap_left keys fun k _ => hgroup k).trans ?_
  rw [← List.map_flatMap]
  exact (flatMap_filter_perm_all f hkeys hall l).map g

end Grouping
