import Mathlib.Algebra.BigOperators.Group.List.Basic
import Mathlib.Data.List.Nodup
import Mathlib.Data.Multiset.AddSub

/-! Insertion-ordered dictionaries with unique keys: assigning to a present key
keeps its position, assigning to a new one appends. -/

section Entries

variable {κ ν : Type} [BEq κ] [LawfulBEq κ] {entries others : List (κ × ν)} {key : κ}

theorem mem_of_lookup {value : ν} (h : entries.lookup key = some value) :
    (key, value) ∈ entries := by
  obtain ⟨_, _, rfl, -⟩ := List.lookup_eq_some_iff.1 h
  simp

theorem lookup_eq_some_iff (h : (entries.map Prod.fst).Nodup) {value : ν} :
    entries.lookup key = some value ↔ (key, value) ∈ entries := by
  refine ⟨mem_of_lookup, fun hmem => ?_⟩
  obtain ⟨before, rest, rfl⟩ := List.append_of_mem hmem
  refine List.lookup_eq_some_iff.2 ⟨before, rest, rfl, fun entry hentry => ?_⟩
  rw [List.map_append, List.nodup_append] at h
  rw [bne_iff_ne, ne_comm]
  exact h.2.2 _ (List.mem_map_of_mem hentry) _ (by simp)

theorem lookup_of_perm (h : (entries.map Prod.fst).Nodup) (hperm : others.Perm entries) :
    others.lookup key = entries.lookup key := by
  apply Option.ext
  intro value
  have hnodup : (others.map Prod.fst).Nodup := (hperm.map Prod.fst).nodup_iff.2 h
  rw [lookup_eq_some_iff hnodup, lookup_eq_some_iff h]
  exact hperm.mem_iff

end Entries

/-- A dictionary is its entries in insertion order; no key occurs twice. -/
structure Dict (κ ν : Type) where
  entries : List (κ × ν)
  nodup : (entries.map Prod.fst).Nodup

namespace Dict

variable {κ ν : Type}

theorem ext {d e : Dict κ ν} (h : d.entries = e.entries) : d = e := by
  cases d; cases e; congr

def empty : Dict κ ν := ⟨[], List.nodup_nil⟩

def keys (d : Dict κ ν) : List κ := d.entries.map Prod.fst

def values (d : Dict κ ν) : List ν := d.entries.map Prod.snd

def size (d : Dict κ ν) : Nat := d.entries.length

variable [DecidableEq κ]

instance [DecidableEq ν] : DecidableEq (Dict κ ν) := fun d e =>
  decidable_of_iff (d.entries = e.entries) ⟨ext, fun h => h ▸ rfl⟩

def get? (d : Dict κ ν) (k : κ) : Option ν := d.entries.lookup k

def contains (d : Dict κ ν) (k : κ) : Bool := (d.get? k).isSome

/-- `entries` with `k` bound to `v`: in place when `k` is bound, at the end otherwise. -/
def assign (k : κ) (v : ν) : List (κ × ν) → List (κ × ν)
  | [] => [(k, v)]
  | (k', v') :: rest => if k' = k then (k, v) :: rest else (k', v') :: assign k v rest

theorem assign_keys (k : κ) (v : ν) (l : List (κ × ν)) :
    (assign k v l).map Prod.fst =
      if k ∈ l.map Prod.fst then l.map Prod.fst else l.map Prod.fst ++ [k] := by
  induction l with
  | nil => rfl
  | cons e rest ih =>
    obtain ⟨k', v'⟩ := e
    by_cases h : k' = k
    · subst h; simp [assign]
    · have h' : k ≠ k' := fun e => h e.symm
      simp only [assign, h, if_false, List.map_cons, ih, List.mem_cons, h', false_or]
      split <;> rfl

def insert (d : Dict κ ν) (k : κ) (v : ν) : Dict κ ν where
  entries := assign k v d.entries
  nodup := by
    rw [assign_keys]
    split
    · exact d.nodup
    · next h => exact List.nodup_append.2 ⟨d.nodup, List.nodup_singleton k, by
        rintro a ha b hb rfl
        exact h (List.mem_singleton.1 hb ▸ ha)⟩

/-- `d.pop(k, None)`, keeping only the remaining dictionary. -/
def erase (d : Dict κ ν) (k : κ) : Dict κ ν where
  entries := d.entries.filter fun e => e.1 ≠ k
  nodup := d.nodup.sublist (List.filter_sublist.map _)

@[simp] theorem get?_empty (k : κ) : (empty : Dict κ ν).get? k = none := rfl

theorem lookup_cons_ite (k k' : κ) (v : ν) (l : List (κ × ν)) :
    ((k', v) :: l).lookup k = if k = k' then some v else l.lookup k := by
  by_cases h : k = k'
  · subst h; simp
  · rw [List.lookup_cons, beq_false_of_ne h, if_neg h]

theorem lookup_eq_none_of_not_mem {k : κ} {l : List (κ × ν)} (h : k ∉ l.map Prod.fst) :
    l.lookup k = none := by
  induction l with
  | nil => rfl
  | cons e rest ih =>
    simp only [List.map_cons, List.mem_cons, not_or] at h
    rw [lookup_cons_ite, if_neg h.1, ih h.2]

theorem lookup_assign (k k' : κ) (v : ν) (l : List (κ × ν)) :
    (assign k v l).lookup k' = if k' = k then some v else l.lookup k' := by
  induction l with
  | nil => exact lookup_cons_ite k' k v []
  | cons e rest ih =>
    obtain ⟨k₀, v₀⟩ := e
    simp only [assign]
    by_cases h₀ : k₀ = k
    · subst h₀
      rw [if_pos rfl, lookup_cons_ite, lookup_cons_ite]
      split <;> rfl
    · rw [if_neg h₀, lookup_cons_ite, lookup_cons_ite, ih]
      by_cases h : k' = k₀
      · subst h; simp [h₀]
      · simp [h]

theorem get?_insert (d : Dict κ ν) (k k' : κ) (v : ν) :
    (d.insert k v).get? k' = if k' = k then some v else d.get? k' :=
  lookup_assign k k' v d.entries

@[simp] theorem get?_insert_self (d : Dict κ ν) (k : κ) (v : ν) :
    (d.insert k v).get? k = some v := by
  rw [get?_insert, if_pos rfl]

theorem get?_insert_of_ne (d : Dict κ ν) {k k' : κ} (v : ν) (h : k' ≠ k) :
    (d.insert k v).get? k' = d.get? k' := by
  rw [get?_insert, if_neg h]

/-- Assigning in turn entries that agree on the value of each key. -/
theorem get?_insertAll {entries : List (κ × ν)} {value : κ → Option ν}
    (h : ∀ entry ∈ entries, value entry.1 = some entry.2) (d : Dict κ ν) (k : κ) :
    (entries.foldl (fun d entry => d.insert entry.1 entry.2) d).get? k =
      if k ∈ entries.map Prod.fst then value k else d.get? k := by
  induction entries generalizing d with
  | nil => simp
  | cons entry rest ih =>
    rw [List.forall_mem_cons] at h
    rw [List.foldl_cons, ih h.2, get?_insert, List.map_cons]
    by_cases hrest : k ∈ rest.map Prod.fst
    · simp [hrest]
    · by_cases hk : k = entry.1
      · simp [hk, h.1]
      · simp [hrest, hk]

theorem contains_insert (d : Dict κ ν) (k k' : κ) (v : ν) :
    (d.insert k v).contains k' = (decide (k' = k) || d.contains k') := by
  unfold contains
  rw [get?_insert]
  by_cases h : k' = k
  · simp [h]
  · simp [h]

theorem mem_entries_iff (d : Dict κ ν) (k : κ) (v : ν) :
    (k, v) ∈ d.entries ↔ d.get? k = some v := by
  obtain ⟨l, hl⟩ := d
  unfold get?
  induction l with
  | nil => simp
  | cons e rest ih =>
    obtain ⟨k', v'⟩ := e
    rw [List.map_cons, List.nodup_cons] at hl
    rw [List.mem_cons, ih hl.2, lookup_cons_ite]
    by_cases h : k = k'
    · subst h
      have hk : rest.lookup k = none := lookup_eq_none_of_not_mem hl.1
      simp [hk, eq_comm]
    · simp [h]

theorem mem_values_iff (d : Dict κ ν) (v : ν) : v ∈ d.values ↔ ∃ k, d.get? k = some v := by
  simp only [values, List.mem_map, Prod.exists, exists_eq_right, mem_entries_iff]

theorem mem_keys_iff (d : Dict κ ν) (k : κ) : k ∈ d.keys ↔ ∃ v, d.get? k = some v := by
  simp only [keys, List.mem_map, Prod.exists, exists_and_right, exists_eq_right, mem_entries_iff]

theorem get?_eq_none_iff (d : Dict κ ν) (k : κ) : d.get? k = none ↔ k ∉ d.keys := by
  rw [mem_keys_iff, ← Option.not_isSome_iff_eq_none, Option.isSome_iff_exists]

theorem assign_of_not_mem {k : κ} {l : List (κ × ν)} (v : ν) (h : k ∉ l.map Prod.fst) :
    assign k v l = l ++ [(k, v)] := by
  induction l with
  | nil => rfl
  | cons e rest ih =>
    obtain ⟨k', v'⟩ := e
    simp only [List.map_cons, List.mem_cons, not_or] at h
    rw [assign, if_neg (Ne.symm h.1), ih h.2, List.cons_append]

theorem values_insert_of_get?_none {d : Dict κ ν} {k : κ} (v : ν) (h : d.get? k = none) :
    (d.insert k v).values = d.values ++ [v] := by
  have hk : k ∉ d.entries.map Prod.fst := (get?_eq_none_iff d k).1 h
  simp only [values, insert, assign_of_not_mem v hk, List.map_append, List.map_cons, List.map_nil]

theorem get?_erase (d : Dict κ ν) (k k' : κ) :
    (d.erase k).get? k' = if k' = k then none else d.get? k' := by
  apply Option.ext
  intro v
  rw [← mem_entries_iff]
  simp only [erase, List.mem_filter, mem_entries_iff]
  by_cases h : k' = k <;> simp [h]

theorem erase_of_get?_none {d : Dict κ ν} {k : κ} (h : d.get? k = none) : d.erase k = d := by
  refine ext (List.filter_eq_self.2 fun e he => ?_)
  have hk : k ∉ d.keys := (get?_eq_none_iff d k).1 h
  have hne : e.1 ≠ k := fun heq => hk (heq ▸ List.mem_map_of_mem he)
  simpa using hne

/-- Popping a bound key takes exactly its value out of the values. -/
theorem values_erase_of_get?_some {d : Dict κ ν} {k : κ} {v : ν} (h : d.get? k = some v) :
    (d.values : Multiset ν) = (d.erase k).values + {v} := by
  obtain ⟨l, hl⟩ := d
  simp only [get?, values, erase] at h ⊢
  induction l with
  | nil => cases h
  | cons e rest ih =>
    obtain ⟨k', v'⟩ := e
    rw [List.map_cons, List.nodup_cons] at hl
    rw [lookup_cons_ite] at h
    by_cases hk : k = k'
    · subst hk
      have hv : v' = v := by simpa using h
      have hrest : rest.filter (fun e => decide (e.1 ≠ k)) = rest := by
        rw [List.filter_eq_self]
        intro p hp
        have hne : p.1 ≠ k := fun he => hl.1 (List.mem_map.2 ⟨p, hp, he⟩)
        simpa using hne
      simp only [List.filter_cons, ne_eq, not_true_eq_false, decide_false, Bool.false_eq_true,
        if_false, hrest, List.map_cons, hv]
      rw [← Multiset.cons_coe, ← Multiset.singleton_add, Multiset.add_comm]
    · have h' : rest.lookup k = some v := by simpa [hk] using h
      have hk' : k' ≠ k := fun he => hk he.symm
      simp only [List.filter_cons, ne_eq, hk', not_false_eq_true, decide_true, if_true,
        List.map_cons, ← Multiset.cons_coe]
      rw [Multiset.cons_add, ih hl.2 h']

theorem countP_values_erase {d : Dict κ ν} {k : κ} {v : ν} (h : d.get? k = some v)
    (p : ν → Bool) :
    d.values.countP p = (d.erase k).values.countP p + if p v then 1 else 0 := by
  have hvalues := congrArg (Multiset.countP fun w => p w) (values_erase_of_get?_some h)
  rw [Multiset.countP_add, Multiset.coe_countP, Multiset.coe_countP, ← Multiset.coe_singleton,
    Multiset.coe_countP, List.countP_singleton] at hvalues
  simpa using hvalues

theorem values_map_of_keyed {d : Dict κ ν} {f : ν → κ} (h : ∀ k v, d.get? k = some v → f v = k) :
    d.values.map f = d.keys := by
  unfold values keys
  rw [List.map_map]
  exact List.map_congr_left fun e he => h e.1 e.2 ((mem_entries_iff d e.1 e.2).1 he)

theorem values_filter_map_of_keyed {d : Dict κ ν} {f : ν → κ}
    (h : ∀ k v, d.get? k = some v → f v = k) (q : κ → Bool) :
    (d.values.filter fun v => q (f v)).map f = d.keys.filter q := by
  rw [← values_map_of_keyed h, List.filter_map]
  rfl

/-- `dict.fromkeys(keys)`. -/
def fromKeys (keys : List κ) : Dict κ Unit := keys.foldl (fun d k => d.insert k ()) empty

section Adjust

variable (f : ν → ν)

/-- `d[k] = f(d[k])` where `k` is bound. -/
def adjust (d : Dict κ ν) (k : κ) : Dict κ ν :=
  match d.get? k with
  | some v => d.insert k (f v)
  | none => d

/-- Adjust the values of several keys, one after the other. -/
def adjustAll : List κ → Dict κ ν → Dict κ ν
  | [], d => d
  | k :: rest, d => adjustAll rest (d.adjust f k)

theorem adjust_of_get? {d : Dict κ ν} {k : κ} {v : ν} (h : d.get? k = some v) :
    d.adjust f k = d.insert k (f v) := by
  unfold adjust
  rw [h]

theorem get?_adjust (d : Dict κ ν) (k k' : κ) :
    (d.adjust f k).get? k' = if k' = k then (d.get? k).map f else d.get? k' := by
  cases h : d.get? k with
  | some v => rw [adjust_of_get? f h, get?_insert, Option.map_some]
  | none =>
    have hsame : d.adjust f k = d := by unfold adjust; rw [h]
    rw [hsame]
    split
    · next hk => rw [hk, h, Option.map_none]
    · rfl

theorem get?_adjustAll {keys : List κ} (hkeys : keys.Nodup) (d : Dict κ ν) (k : κ) :
    (d.adjustAll f keys).get? k = if k ∈ keys then (d.get? k).map f else d.get? k := by
  induction keys generalizing d with
  | nil => simp [adjustAll]
  | cons k₀ rest ih =>
    rw [List.nodup_cons] at hkeys
    rw [adjustAll, ih hkeys.2, get?_adjust]
    by_cases h : k = k₀
    · subst h
      simp [hkeys.1]
    · simp [h]

end Adjust

section Defaults

variable (default : ν) (f : ν → ν)

def getDefault (d : Dict κ ν) (k : κ) : ν := (d.get? k).getD default

/-- `d[k] = f(d[k])` of a `defaultdict`, for several keys one after the other. -/
def updateAll : List κ → Dict κ ν → Dict κ ν
  | [], d => d
  | k :: rest, d => updateAll rest (d.insert k (f (d.getDefault default k)))

theorem getDefault_updateAll {keys : List κ} (hkeys : keys.Nodup) (d : Dict κ ν) (k : κ) :
    (updateAll default f keys d).getDefault default k =
      if k ∈ keys then f (d.getDefault default k) else d.getDefault default k := by
  induction keys generalizing d with
  | nil => simp [updateAll]
  | cons k₀ rest ih =>
    rw [List.nodup_cons] at hkeys
    rw [updateAll, ih hkeys.2]
    by_cases h : k = k₀
    · subst h
      simp [hkeys.1, getDefault]
    · simp [h, getDefault, get?_insert]

end Defaults

section Sums

variable {M : Type} [AddCommMonoid M] (f : ν → M)

theorem sum_values_insert (d : Dict κ ν) (k : κ) (v : ν) :
    ((d.insert k v).values.map f).sum + ((d.get? k).map f).getD 0 =
      (d.values.map f).sum + f v := by
  obtain ⟨l, hl⟩ := d
  simp only [values, insert, get?]
  clear hl
  induction l with
  | nil => simp [assign]
  | cons e rest ih =>
    obtain ⟨k', v'⟩ := e
    rw [lookup_cons_ite]
    by_cases h : k' = k
    · subst h
      simp only [assign, if_true, List.map_cons, List.sum_cons, Option.map_some, Option.getD_some]
      rw [add_comm (f v), add_comm (f v'), add_right_comm]
    · have h' : k ≠ k' := fun he => h he.symm
      simp only [assign, h, h', if_false, List.map_cons, List.sum_cons]
      rw [add_assoc, ih, add_assoc]

theorem sum_values_insert_free {d : Dict κ ν} {k : κ} (h : d.get? k = none) (v : ν) :
    ((d.insert k v).values.map f).sum = (d.values.map f).sum + f v := by
  have hsum := sum_values_insert f d k v
  rwa [h, Option.map_none, Option.getD_none, add_zero] at hsum

end Sums

section Extends

/-- Every binding of `d` is a binding of `e`: nothing was rebound or removed. -/
def Extends (d e : Dict κ ν) : Prop := ∀ k v, d.get? k = some v → e.get? k = some v

theorem Extends.refl (d : Dict κ ν) : Extends d d := fun _ _ h => h

theorem Extends.trans {d e f : Dict κ ν} (h : Extends d e) (h' : Extends e f) : Extends d f :=
  fun k v hk => h' k v (h k v hk)

/-- Binding a free key rebinds nothing. -/
theorem extends_insert {d : Dict κ ν} {k : κ} (v : ν) (h : d.get? k = none) :
    Extends d (d.insert k v) := by
  intro k' v' h'
  rw [get?_insert_of_ne d v, h']
  rintro rfl
  rw [h] at h'
  cases h'

end Extends

end Dict
