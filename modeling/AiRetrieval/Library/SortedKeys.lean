import Mathlib.Data.List.Sort

/-! Sorting a list by a key. Where no key occurs twice, the sorted list is fixed by the elements
alone, and not by the order they came in. -/

namespace SortedKeys

variable {α κ : Type} [LinearOrder κ] (key : α → κ)

def sorted (l : List α) : List α := l.insertionSort fun a b => key a ≤ key b

theorem sorted_perm (l : List α) : (sorted key l).Perm l := List.perm_insertionSort _ l

theorem sorted_ordered (l : List α) : (sorted key l).Pairwise fun a b => key a ≤ key b := by
  have : Std.Total fun a b : α => key a ≤ key b := ⟨fun a b => le_total (key a) (key b)⟩
  have : IsTrans α fun a b => key a ≤ key b := ⟨fun _ _ _ => le_trans⟩
  exact List.pairwise_insertionSort _ l

variable {key}

theorem keys_eq {l l' : List α} (h : l.Perm l') (hl : l.Pairwise fun a b => key a ≤ key b)
    (hl' : l'.Pairwise fun a b => key a ≤ key b) : l.map key = l'.map key :=
  (h.map key).eq_of_pairwise (fun _ _ _ _ => le_antisymm) (List.pairwise_map.2 hl)
    (List.pairwise_map.2 hl')

theorem eq_of_keys_nodup {l l' : List α} (h : l.Perm l')
    (hl : l.Pairwise fun a b => key a ≤ key b) (hl' : l'.Pairwise fun a b => key a ≤ key b)
    (hkeys : (l.map key).Nodup) : l = l' := by
  refine h.eq_of_pairwise (fun a b ha hb hab hba => ?_) hl hl'
  exact List.inj_on_of_nodup_map hkeys ha (h.mem_iff.2 hb) (le_antisymm hab hba)

theorem sorted_keys_of_perm {l l' : List α} (h : l.Perm l') :
    (sorted key l).map key = (sorted key l').map key :=
  keys_eq (((sorted_perm key l).trans h).trans (sorted_perm key l').symm) (sorted_ordered key l)
    (sorted_ordered key l')

theorem sorted_of_perm {l l' : List α} (h : l.Perm l') (hkeys : ((sorted key l).map key).Nodup) :
    sorted key l = sorted key l' :=
  eq_of_keys_nodup (((sorted_perm key l).trans h).trans (sorted_perm key l').symm)
    (sorted_ordered key l) (sorted_ordered key l') hkeys

theorem sorted_keys_strict {l : List α} (hkeys : (l.map key).Nodup) :
    ((sorted key l).map key).Pairwise (· < ·) := by
  have hnodup : ((sorted key l).map key).Nodup := ((sorted_perm key l).map key).nodup_iff.2 hkeys
  have hordered : ((sorted key l).map key).SortedLE :=
    (List.pairwise_map.2 (sorted_ordered key l)).sortedLE
  exact (hordered.sortedLT_of_nodup hnodup).pairwise

end SortedKeys
