import AiRetrieval.Library.Dictionaries
import AiRetrieval.Spec.Values

/-! Where `freeze` returns, and induction over frozen values and over the values of the
language through their members. -/

namespace AiRetrieval

namespace FrozenValue

def leaf : FrozenValue → Bool
  | .tuple _ | .frozenset _ | .mapping _ => false
  | _ => true

@[elab_as_elim]
theorem induction {motive : FrozenValue → Prop}
    (leaf : ∀ value, value.leaf = true → motive value)
    (tuple : ∀ items, (∀ value ∈ items, motive value) → motive (.tuple items))
    (frozenset : ∀ items, (∀ value ∈ items, motive value) → motive (.frozenset items))
    (mapping : ∀ items, (∀ entry ∈ items, motive entry.2) → motive (.mapping items)) :
    ∀ value, motive value :=
  @FrozenValue.rec motive (fun items => ∀ value ∈ items, motive value)
    (fun items => ∀ entry ∈ items, motive entry.2) (fun entry => motive entry.2)
    (leaf _ rfl) (fun _ => leaf _ rfl) (fun _ => leaf _ rfl) (fun _ => leaf _ rfl)
    (fun _ => leaf _ rfl) (fun items => tuple items) (fun items => frozenset items)
    (fun items => mapping items) (fun _ h => nomatch h)
    (fun _ _ hvalue hrest => List.forall_mem_cons.2 ⟨hvalue, hrest⟩) (fun _ h => nomatch h)
    (fun _ _ hentry hrest => List.forall_mem_cons.2 ⟨hentry, hrest⟩) (fun _ _ h => h)

end FrozenValue

namespace PyValue

/-- A value the walks of the code do not enter. -/
def unentered : PyValue → Bool
  | .list _ | .tuple _ | .dict _ | .frozenMapping _ => false
  | _ => true

@[elab_as_elim]
theorem induction {motive : PyValue → Prop}
    (unentered : ∀ value, value.unentered = true → motive value)
    (list : ∀ items, (∀ value ∈ items, motive value) → motive (.list items))
    (tuple : ∀ items, (∀ value ∈ items, motive value) → motive (.tuple items))
    (dict : ∀ items, (∀ item ∈ items, motive item.2) → motive (.dict items))
    (frozenMapping : ∀ items, motive (.frozenMapping items)) : ∀ value, motive value :=
  @PyValue.rec motive (fun items => ∀ value ∈ items, motive value)
    (fun items => ∀ item ∈ items, motive item.2) (fun item => motive item.2)
    (unentered _ rfl) (fun _ => unentered _ rfl) (fun _ => unentered _ rfl)
    (fun _ => unentered _ rfl) (fun _ => unentered _ rfl) (fun _ => unentered _ rfl)
    (fun items => list items) (fun items => tuple items) (fun _ _ => unentered _ rfl)
    (fun _ _ => unentered _ rfl) (fun items => dict items) (fun items => frozenMapping items)
    (fun _ => unentered _ rfl) (fun _ h => nomatch h)
    (fun _ _ hvalue hrest => List.forall_mem_cons.2 ⟨hvalue, hrest⟩) (fun _ h => nomatch h)
    (fun _ _ hitem hrest => List.forall_mem_cons.2 ⟨hitem, hrest⟩) (fun _ _ _ h => h)

/-- The keys of every dictionary the walks enter are distinct, as the language has it. -/
inductive Distinct : PyValue → Prop
  | unentered {value : PyValue} : value.unentered = true → Distinct value
  | list {items : List PyValue} : (∀ value ∈ items, Distinct value) → Distinct (.list items)
  | tuple {items : List PyValue} : (∀ value ∈ items, Distinct value) → Distinct (.tuple items)
  | dict {items : List (PyValue × PyValue)} : (items.map Prod.fst).Nodup →
      (∀ item ∈ items, Distinct item.2) → Distinct (.dict items)
  | frozenMapping (items : FrozenMapping) : Distinct (.frozenMapping items)

theorem Distinct.members_list {items : List PyValue} (h : Distinct (.list items)) :
    ∀ value ∈ items, Distinct value := by
  cases h with
  | unentered h => cases h
  | list h => exact h

theorem Distinct.members_tuple {items : List PyValue} (h : Distinct (.tuple items)) :
    ∀ value ∈ items, Distinct value := by
  cases h with
  | unentered h => cases h
  | tuple h => exact h

theorem Distinct.members_textDict {items : List (String × PyValue)}
    (h : Distinct (.dict (items.map fun item => (.str item.1, item.2)))) :
    (items.map Prod.fst).Nodup ∧ ∀ item ∈ items, Distinct item.2 := by
  cases h with
  | unentered h => cases h
  | dict hkeys hmembers =>
    rw [List.map_map] at hkeys
    constructor
    · apply List.Nodup.of_map PyValue.str
      rwa [List.map_map]
    · intro item hitem
      exact hmembers _ (List.mem_map_of_mem (f := fun item : String × PyValue =>
        (PyValue.str item.1, item.2)) hitem)

theorem freezeItems_ok_iff {items : List PyValue} {out : List FrozenValue} :
    freezeItems items = .ok out ↔
      List.Forall₂ (fun value frozen => value.freeze = .ok frozen) items out := by
  induction items generalizing out with
  | nil =>
    rw [List.forall₂_nil_left_iff]
    exact ⟨fun h => (by cases h; rfl), fun h => (by rw [h]; rfl)⟩
  | cons value rest ih =>
    rw [freezeItems, except_bind_eq_ok, List.forall₂_cons_left_iff]
    constructor
    · rintro ⟨frozen, hfrozen, h⟩
      obtain ⟨others, hothers, h⟩ := except_bind_eq_ok.1 h
      cases h
      exact ⟨frozen, others, hfrozen, ih.1 hothers, rfl⟩
    · rintro ⟨frozen, others, hfrozen, hothers, rfl⟩
      exact ⟨frozen, hfrozen, except_bind_eq_ok.2 ⟨others, ih.2 hothers, rfl⟩⟩

/-- The entries of a dictionary with text keys, as `freeze` takes them over. -/
def FreezesTo (item : String × PyValue) (entry : String × FrozenValue) : Prop :=
  item.1 = entry.1 ∧ item.2.freeze = .ok entry.2

theorem freezeEntries_ok_iff {items : List (String × PyValue)} {out : FrozenMapping} :
    freezeEntries (items.map fun item => (.str item.1, item.2)) = .ok out ↔
      List.Forall₂ FreezesTo items out := by
  induction items generalizing out with
  | nil =>
    rw [List.forall₂_nil_left_iff]
    exact ⟨fun h => (by cases h; rfl), fun h => (by rw [h]; rfl)⟩
  | cons item rest ih =>
    rw [List.map_cons, freezeEntries, except_bind_eq_ok, List.forall₂_cons_left_iff]
    constructor
    · rintro ⟨frozen, hfrozen, h⟩
      obtain ⟨others, hothers, h⟩ := except_bind_eq_ok.1 h
      cases h
      exact ⟨(item.1, frozen), others, ⟨rfl, hfrozen⟩, ih.1 hothers, rfl⟩
    · rintro ⟨⟨key, frozen⟩, others, ⟨hkey, hfrozen⟩, hothers, rfl⟩
      refine ⟨frozen, hfrozen, except_bind_eq_ok.2 ⟨others, ih.2 hothers, ?_⟩⟩
      cases hkey
      rfl

/-- The entries in the order of their keys. -/
def arranged (entries : FrozenMapping) : FrozenMapping :=
  entries.insertionSort fun a b => a.1 ≤ b.1

theorem arranged_perm (entries : FrozenMapping) : (arranged entries).Perm entries :=
  List.perm_insertionSort _ _

theorem arranged_strict {entries : FrozenMapping} (h : (entries.map Prod.fst).Nodup) :
    (arranged entries).Pairwise fun a b => a.1 < b.1 := by
  have : Std.Total fun a b : String × FrozenValue => a.1 ≤ b.1 := ⟨fun a b => Std.le_total⟩
  have : IsTrans (String × FrozenValue) fun a b => a.1 ≤ b.1 := ⟨fun _ _ _ => Std.le_trans⟩
  have hsorted : (arranged entries).Pairwise fun a b => a.1 ≤ b.1 :=
    List.pairwise_insertionSort _ entries
  have hdistinct : (arranged entries).Pairwise fun a b => a.1 ≠ b.1 := by
    rw [← List.pairwise_map (R := (· ≠ ·))]
    exact ((arranged_perm entries).map Prod.fst).nodup_iff.2 h
  refine hsorted.imp₂ (fun a b hle hne => ?_) hdistinct
  rw [← String.not_le]
  exact fun hge => hne (Std.le_antisymm hle hge)

theorem freeze_textDict (items : List (String × PyValue)) :
    (dict (items.map fun item => (.str item.1, item.2))).freeze =
      (fun entries => .mapping (arranged entries)) <$>
        freezeEntries (items.map fun item => (.str item.1, item.2)) := by
  rw [freeze]
  apply if_pos
  rw [List.all_eq_true]
  intro item hitem
  obtain ⟨entry, -, rfl⟩ := List.mem_map.1 hitem
  rfl

theorem freeze_dict_ok {items : List (PyValue × PyValue)} {frozen : FrozenValue}
    (h : (dict items).freeze = .ok frozen) :
    ∃ texts entries, items = texts.map (fun item => (.str item.1, item.2)) ∧
      List.Forall₂ FreezesTo texts entries ∧ frozen = .mapping (arranged entries) := by
  have htexts : ∃ texts : List (String × PyValue),
      items = texts.map fun item => (.str item.1, item.2) := by
    rw [freeze] at h
    split at h
    · next hall =>
      rw [List.all_eq_true] at hall
      clear h
      induction items with
      | nil => exact ⟨[], rfl⟩
      | cons item rest ih =>
        obtain ⟨texts, rfl⟩ := ih fun item hitem => hall item (List.mem_cons_of_mem _ hitem)
        have hitem := hall item (List.mem_cons_self ..)
        obtain ⟨key, value⟩ := item
        cases key with
        | str key => exact ⟨(key, value) :: texts, rfl⟩
        | _ => cases hitem
    · cases h
  obtain ⟨texts, rfl⟩ := htexts
  rw [freeze_textDict] at h
  cases hentries : freezeEntries (texts.map fun item => (.str item.1, item.2)) with
  | error e => rw [hentries] at h; cases h
  | ok entries =>
    rw [hentries] at h
    cases h
    exact ⟨texts, entries, rfl, freezeEntries_ok_iff.1 hentries, rfl⟩

theorem freezesTo_keys {items : List (String × PyValue)} {entries : FrozenMapping}
    (h : List.Forall₂ FreezesTo items entries) : items.map Prod.fst = entries.map Prod.fst := by
  induction h with
  | nil => rfl
  | cons hfirst _ ih => rw [List.map_cons, List.map_cons, ih, hfirst.1]

theorem freezesTo_lookup {items : List (String × PyValue)} {entries : FrozenMapping}
    (h : List.Forall₂ FreezesTo items entries) (key : String) (frozen : FrozenValue) :
    entries.lookup key = some frozen ↔
      ∃ value, items.lookup key = some value ∧ value.freeze = .ok frozen := by
  induction h with
  | nil => simp
  | @cons item entry rest others hfirst _ ih =>
    obtain ⟨first, value⟩ := item
    obtain ⟨first', frozen'⟩ := entry
    obtain ⟨hkey, hvalue⟩ := hfirst
    dsimp only at hkey hvalue
    subst hkey
    rw [Dict.lookup_cons_ite, Dict.lookup_cons_ite]
    by_cases hkey : key = first
    · simp only [if_pos hkey, Option.some.injEq]
      constructor
      · rintro rfl
        exact ⟨value, rfl, hvalue⟩
      · rintro ⟨_, rfl, hother⟩
        exact Except.ok.inj (hvalue.symm.trans hother)
    · simp only [if_neg hkey]
      exact ih

mutual

theorem freeze_object : ∀ value : FrozenValue, value.object.freeze = .ok value
  | .none => rfl
  | .bool _ => rfl
  | .int _ => rfl
  | .float _ => rfl
  | .str _ => rfl
  | .tuple items => by rw [FrozenValue.object, freeze, freezeItems_objects items]; rfl
  | .frozenset items => by rw [FrozenValue.object, freeze, freezeItems_objects items]; rfl
  | .mapping _ => rfl

theorem freezeItems_objects : ∀ items : List FrozenValue,
    freezeItems (FrozenValue.objects items) = .ok items
  | [] => rfl
  | value :: rest => by
    rw [FrozenValue.objects, freezeItems, freeze_object value, freezeItems_objects rest]
    rfl

end

theorem freezeItems_texts (values : List String) :
    freezeItems (values.map .str) = .ok (values.map .str) := by
  induction values with
  | nil => rfl
  | cons value rest ih =>
    rw [List.map_cons, freezeItems, ih]
    rfl

theorem freeze_texts (values : List String) :
    (tuple (values.map .str)).freeze = .ok (.tuple (values.map .str)) := by
  rw [freeze, freezeItems_texts]
  rfl

theorem freezeEntries_returns_iff (items : List (String × PyValue)) :
    (∃ entries, freezeEntries (items.map fun item => (.str item.1, item.2)) = .ok entries) ↔
      ∀ item ∈ items, ∃ frozen, item.2.freeze = .ok frozen := by
  induction items with
  | nil => exact ⟨fun _ item h => (nomatch h), fun _ => ⟨[], rfl⟩⟩
  | cons item rest ih =>
    rw [List.map_cons, List.forall_mem_cons, ← ih]
    constructor
    · rintro ⟨entries, h⟩
      rw [freezeEntries] at h
      obtain ⟨frozen, hfrozen, h⟩ := except_bind_eq_ok.1 h
      obtain ⟨others, hothers, -⟩ := except_bind_eq_ok.1 h
      exact ⟨⟨frozen, hfrozen⟩, others, hothers⟩
    · rintro ⟨⟨frozen, hfrozen⟩, others, hothers⟩
      refine ⟨(item.1, frozen) :: others, ?_⟩
      rw [freezeEntries, hfrozen, hothers]
      rfl

theorem frozenDict_returns_iff (items : List (String × PyValue)) :
    (∃ frozen, (dict (items.map fun item => (.str item.1, item.2))).freeze >>= asserted =
      .ok frozen) ↔ ∀ item ∈ items, ∃ frozen, item.2.freeze = .ok frozen := by
  rw [← freezeEntries_returns_iff]
  rw [freeze_textDict]
  cases freezeEntries (items.map fun item => (.str item.1, item.2)) with
  | error e => exact ⟨fun ⟨_, h⟩ => (by cases h), fun ⟨_, h⟩ => (by cases h)⟩
  | ok entries => exact ⟨fun _ => ⟨entries, rfl⟩, fun _ => ⟨_, rfl⟩⟩

end PyValue

end AiRetrieval
