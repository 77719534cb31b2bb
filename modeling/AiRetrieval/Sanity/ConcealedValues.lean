import AiRetrieval.Sanity.FrozenValues
import AiRetrieval.Spec.Concealment

/-! What the masking and redaction walks make of a frozen value, and what it means for a
value that every sensitive entry carries the representation. -/

namespace AiRetrieval

namespace Concealment

variable {c : Concealment}

/-- The second value is what the walk, and then `freeze`, make of the first. -/
inductive Conceals (c : Concealment) : List String → FrozenValue → FrozenValue → Prop
  | text {path : List String} (value : String) : Conceals c path (.str value) (.str (c.text value))
  | leaf {path : List String} {value : FrozenValue} : value.leaf = true →
      (∀ text, value ≠ .str text) → Conceals c path value value
  | tuple {path : List String} {items out : List FrozenValue} : items.length = out.length →
      (∀ (i : Nat) x y, items[i]? = some x → out[i]? = some y → Conceals c path x y) →
      Conceals c path (.tuple items) (.tuple out)
  | frozenset {path : List String} (items : List FrozenValue) :
      Conceals c path (.frozenset items) (.frozenset items)
  | mapping {path : List String} {items out : FrozenMapping} :
      (out.Pairwise fun a b => a.1 < b.1) →
      (∀ key, (out.get key).isSome = (items.get key).isSome) →
      (∀ key x y, items.get key = some x → out.get key = some y → c.hides path key = true →
        y = .str c.representation) →
      (∀ key x y, items.get key = some x → out.get key = some y → c.hides path key = false →
        Conceals c (c.next path key) x y) →
      Conceals c path (.mapping items) (.mapping out)

section Outputs

theorem freeze_outputOf {entries : List (String × PyValue)} {value : String → Option PyValue}
    (hvalue : ∀ entry ∈ entries, value entry.1 = some entry.2)
    (hkeys : ∀ key, value key ≠ none → key ∈ entries.map Prod.fst)
    (hfreeze : ∀ entry ∈ entries, ∃ frozen, entry.2.freeze = .ok frozen) :
    ∃ out : FrozenMapping, (outputOf entries).freeze = .ok (.mapping out) ∧
      (out.Pairwise fun a b => a.1 < b.1) ∧
      ∀ key frozen, out.get key = some frozen ↔
        ∃ item, value key = some item ∧ item.freeze = .ok frozen := by
  let output := entries.foldl (fun output entry => output.insert entry.1 entry.2)
    (.empty : Dict String PyValue)
  have hget : ∀ key, output.get? key = value key := by
    intro key
    rw [Dict.get?_insertAll hvalue]
    by_cases hkey : key ∈ entries.map Prod.fst
    · rw [if_pos hkey]
    · rw [if_neg hkey, Dict.get?_empty]
      by_contra hne
      exact hkey (hkeys key (Ne.symm hne))
  have hitems : ∀ item ∈ output.entries, ∃ frozen, item.2.freeze = .ok frozen := by
    intro item hitem
    have hsome := (output.mem_entries_iff item.1 item.2).1 hitem
    rw [hget] at hsome
    obtain ⟨entry, hentry, hkey⟩ := List.mem_map.1 (hkeys item.1 (by rw [hsome]; simp))
    have hsame := hvalue entry hentry
    rw [hkey, hsome] at hsame
    rw [Option.some.inj hsame]
    exact hfreeze entry hentry
  obtain ⟨frozen, hfrozen⟩ := (PyValue.freezeEntries_returns_iff output.entries).2 hitems
  have hsteps := PyValue.freezeEntries_ok_iff.1 hfrozen
  have hnodup : (frozen.map Prod.fst).Nodup := by
    rw [← PyValue.freezesTo_keys hsteps]
    exact output.nodup
  refine ⟨PyValue.arranged frozen, ?_, PyValue.arranged_strict hnodup, fun key value' => ?_⟩
  · change (PyValue.dict (output.entries.map fun entry => (.str entry.1, entry.2))).freeze = _
    rw [PyValue.freeze_textDict, hfrozen]
    rfl
  · rw [FrozenMapping.get, lookup_of_perm hnodup (PyValue.arranged_perm frozen),
      PyValue.freezesTo_lookup hsteps, ← hget]
    rfl

theorem firstValues_agree (entries : List (String × PyValue)) :
    ∀ entry ∈ firstValues entries, entries.lookup entry.1 = some entry.2 := by
  intro entry hentry
  obtain ⟨first, hfirst, rfl⟩ := List.mem_map.1 hentry
  have hsome : (entries.lookup first.1).isSome = true := by
    rw [List.lookup_isSome_iff]
    exact ⟨first, hfirst, beq_self_eq_true _⟩
  obtain ⟨value, hvalue⟩ := Option.isSome_iff_exists.1 hsome
  simp only [hvalue, Option.getD_some]

theorem firstValues_keys (entries : List (String × PyValue)) :
    (firstValues entries).map Prod.fst = entries.map Prod.fst := by
  simp [firstValues, Function.comp_def]

theorem mem_keys_of_lookup {entries : List (String × PyValue)} {key : String}
    (h : entries.lookup key ≠ none) : key ∈ entries.map Prod.fst := by
  by_contra hkey
  exact h (Dict.lookup_eq_none_of_not_mem hkey)

theorem freezeItems_map {α : Type} {R : α → FrozenValue → Prop} {f : α → PyValue} {items : List α}
    (h : ∀ x ∈ items, ∃ y, (f x).freeze = .ok y ∧ R x y) :
    ∃ out, PyValue.freezeItems (items.map f) = .ok out ∧ items.length = out.length ∧
      ∀ (i : Nat) x y, items[i]? = some x → out[i]? = some y → R x y := by
  induction items with
  | nil => exact ⟨[], rfl, rfl, fun i x y h => by simp at h⟩
  | cons first rest ih =>
    rw [List.forall_mem_cons] at h
    obtain ⟨⟨y, hy, hR⟩, hrest⟩ := h
    obtain ⟨out, hout, hlength, hall⟩ := ih hrest
    refine ⟨y :: out, ?_, by simp [hlength], fun i x' y' hx hy' => ?_⟩
    · rw [List.map_cons, PyValue.freezeItems, hy, hout]
      rfl
    · cases i with
      | zero =>
        rw [List.getElem?_cons_zero, Option.some.injEq] at hx hy'
        rwa [← hx, ← hy']
      | succ i => exact hall i x' y' hx hy'

end Outputs

theorem concealFrozenItems_eq (path : List String) (items : List FrozenValue) :
    c.concealFrozenItems path items = items.map (c.concealFrozen path) := by
  induction items with
  | nil => rfl
  | cons value rest ih => rw [concealFrozenItems, List.map_cons, ih]

/-- What the walk leaves under a key. -/
def shown (c : Concealment) (path : List String) (key : String) (value : PyValue) : PyValue :=
  if c.hides path key then .str c.representation else value

theorem concealFrozenEntries_eq (path : List String) (items : FrozenMapping) :
    c.concealFrozenEntries path items = items.map fun entry =>
      (entry.1, c.shown path entry.1 (c.concealFrozen (c.next path entry.1) entry.2)) := by
  induction items with
  | nil => rfl
  | cons entry rest ih =>
    obtain ⟨key, value⟩ := entry
    rw [concealFrozenEntries, List.map_cons, ih]
    rfl

theorem lookup_map_entries {α β : Type} (f : String → α → β) (items : List (String × α))
    (key : String) :
    (items.map fun entry => (entry.1, f entry.1 entry.2)).lookup key =
      (items.lookup key).map (f key) := by
  induction items with
  | nil => rfl
  | cons entry rest ih =>
    obtain ⟨first, value⟩ := entry
    rw [List.map_cons, Dict.lookup_cons_ite, Dict.lookup_cons_ite, ih]
    split
    · next h => rw [h]; rfl
    · rfl

theorem conceals_mapping {path : List String} {items out : FrozenMapping}
    {walked : String → Option PyValue}
    (hstrict : out.Pairwise fun a b => a.1 < b.1)
    (hout : ∀ key frozen, out.get key = some frozen ↔
      ∃ item, walked key = some item ∧ item.freeze = .ok frozen)
    (hwalked : ∀ key, (walked key).isSome = (items.get key).isSome)
    (hshown : ∀ key x, items.get key = some x → ∃ item y, walked key = some item ∧
      item.freeze = .ok y ∧ (c.hides path key = true → y = .str c.representation) ∧
      (c.hides path key = false → Conceals c (c.next path key) x y)) :
    Conceals c path (.mapping items) (.mapping out) := by
  have hsame : ∀ key x y, items.get key = some x → out.get key = some y →
      (c.hides path key = true → y = .str c.representation) ∧
      (c.hides path key = false → Conceals c (c.next path key) x y) := by
    intro key x y hx hy
    obtain ⟨item, y', hitem, hy', h⟩ := hshown key x hx
    obtain ⟨item', hitem', hfreeze⟩ := (hout key y).1 hy
    rw [hitem] at hitem'
    cases hitem'
    rw [hy'] at hfreeze
    cases hfreeze
    exact h
  refine .mapping hstrict (fun key => ?_) (fun key x y hx hy => (hsame key x y hx hy).1)
    fun key x y hx hy => (hsame key x y hx hy).2
  cases hx : items.get key with
  | some x =>
    obtain ⟨item, y, hitem, hy, -⟩ := hshown key x hx
    rw [(hout key y).2 ⟨item, hitem, hy⟩]
    rfl
  | none =>
    cases hy : out.get key with
    | none => rfl
    | some y =>
      obtain ⟨item, hitem, -⟩ := (hout key y).1 hy
      have := hwalked key
      rw [hitem, hx] at this
      cases this

theorem shown_freeze {path : List String} {key : String} {x : FrozenValue} {value : PyValue}
    (h : ∃ y, value.freeze = .ok y ∧ Conceals c (c.next path key) x y) :
    ∃ y, (c.shown path key value).freeze = .ok y ∧
      (c.hides path key = true → y = .str c.representation) ∧
      (c.hides path key = false → Conceals c (c.next path key) x y) := by
  unfold shown
  by_cases hhides : c.hides path key = true
  · rw [if_pos hhides]
    exact ⟨.str c.representation, rfl, fun _ => rfl, fun hfalse => by simp [hhides] at hfalse⟩
  · obtain ⟨y, hy, hconceals⟩ := h
    rw [if_neg hhides]
    exact ⟨y, hy, fun htrue => absurd htrue hhides, fun _ => hconceals⟩

theorem freeze_concealFrozen (c : Concealment) (value : FrozenValue) : ∀ path,
    ∃ out, (c.concealFrozen path value).freeze = .ok out ∧ Conceals c path value out := by
  induction value using FrozenValue.induction with
  | leaf value hleaf =>
    intro path
    cases value with
    | str text => exact ⟨_, rfl, .text text⟩
    | none | bool | int | float => exact ⟨_, rfl, .leaf rfl fun _ h => by cases h⟩
    | tuple | frozenset | mapping => cases hleaf
  | tuple items ih =>
    intro path
    obtain ⟨out, hout, hlength, hall⟩ := freezeItems_map fun value hvalue => ih value hvalue path
    refine ⟨.tuple out, ?_, .tuple hlength hall⟩
    rw [concealFrozen, concealFrozenItems_eq, PyValue.freeze, hout]
    rfl
  | frozenset items _ =>
    intro path
    refine ⟨.frozenset items, ?_, .frozenset items⟩
    rw [concealFrozen, PyValue.freeze, PyValue.freezeItems_objects]
    rfl
  | mapping items ih =>
    intro path
    have hshown : ∀ entry ∈ items, ∃ y,
        (c.shown path entry.1 (c.concealFrozen (c.next path entry.1) entry.2)).freeze = .ok y ∧
        (c.hides path entry.1 = true → y = .str c.representation) ∧
        (c.hides path entry.1 = false → Conceals c (c.next path entry.1) entry.2 y) :=
      fun entry hentry => shown_freeze (ih entry hentry _)
    have hkeys : ∀ key, (c.concealFrozenEntries path items).lookup key ≠ none →
        key ∈ (firstValues (c.concealFrozenEntries path items)).map Prod.fst := by
      intro key hkey
      rw [firstValues_keys]
      exact mem_keys_of_lookup hkey
    have hentries : ∀ entry ∈ firstValues (c.concealFrozenEntries path items),
        ∃ frozen, entry.2.freeze = .ok frozen := by
      intro entry hentry
      have hmem := mem_of_lookup (firstValues_agree _ entry hentry)
      rw [concealFrozenEntries_eq] at hmem
      obtain ⟨item, hitem, hsame⟩ := List.mem_map.1 hmem
      obtain ⟨y, hy, -⟩ := hshown item hitem
      rw [← (Prod.mk.inj hsame).2]
      exact ⟨y, hy⟩
    obtain ⟨out, hfreeze, hstrict, hout⟩ :=
      freeze_outputOf (firstValues_agree _) hkeys hentries
    have hwalked : ∀ key, (c.concealFrozenEntries path items).lookup key =
        (FrozenMapping.get items key).map fun x =>
          c.shown path key (c.concealFrozen (c.next path key) x) := by
      intro key
      rw [concealFrozenEntries_eq]
      exact lookup_map_entries
        (fun key x => c.shown path key (c.concealFrozen (c.next path key) x)) items key
    refine ⟨.mapping out, hfreeze, conceals_mapping hstrict hout (fun key => ?_) fun key x hx => ?_⟩
    · rw [hwalked, Option.isSome_map]
    · obtain ⟨y, hy, h⟩ := hshown (key, x) (mem_of_lookup hx)
      exact ⟨_, y, by rw [hwalked, hx]; rfl, hy, h⟩

variable {textOf : PyValue → String}

theorem concealItems_eq (path : List String) (items : List PyValue) :
    c.concealItems textOf path items = items.map (c.conceal textOf path) := by
  induction items with
  | nil => rfl
  | cons value rest ih => rw [concealItems, List.map_cons, ih]

theorem concealEntries_eq (path : List String) (items : List (String × PyValue)) :
    c.concealEntries textOf path (items.map fun item => (.str item.1, item.2)) =
      items.map fun item =>
        (item.1, c.shown path item.1 (c.conceal textOf (c.next path item.1) item.2)) := by
  induction items with
  | nil => rfl
  | cons item rest ih =>
    rw [List.map_cons, concealEntries, List.map_cons, ih]
    rfl

/-- A sequence that freezes, walked. -/
theorem freeze_concealItems {path : List String} {items : List PyValue} {frozen : List FrozenValue}
    (hitems : List.Forall₂ (fun value frozen => value.freeze = .ok frozen) items frozen)
    (ih : ∀ value ∈ items, ∀ frozen, value.freeze = .ok frozen → ∃ out,
      (c.conceal textOf path value).freeze = .ok out ∧ Conceals c path frozen out) :
    ∃ out, PyValue.freezeItems (c.concealItems textOf path items) = .ok out ∧
      Conceals c path (.tuple frozen) (.tuple out) := by
  rw [concealItems_eq]
  induction hitems with
  | nil => exact ⟨[], rfl, .tuple rfl fun i x y h => by simp at h⟩
  | @cons value x rest others hfirst hrest ihrest =>
    rw [List.forall_mem_cons] at ih
    obtain ⟨y, hy, hconceals⟩ := ih.1 x hfirst
    obtain ⟨out, hout, htail⟩ := ihrest ih.2
    cases htail with
    | leaf hleaf => cases hleaf
    | tuple hlength hall =>
      refine ⟨y :: out, ?_, .tuple (by simp [hlength]) fun i x' y' hx hy' => ?_⟩
      · rw [List.map_cons, PyValue.freezeItems, hy, hout]
        rfl
      · cases i with
        | zero =>
          rw [List.getElem?_cons_zero, Option.some.injEq] at hx hy'
          rwa [← hx, ← hy']
        | succ i => exact hall i x' y' hx hy'

theorem freeze_conceal (c : Concealment) (textOf : PyValue → String) (value : PyValue) :
    value.Distinct → ∀ path frozen, value.freeze = .ok frozen →
      ∃ out, (c.conceal textOf path value).freeze = .ok out ∧ Conceals c path frozen out := by
  induction value using PyValue.induction with
  | unentered value hunentered =>
    intro _ path frozen h
    cases value with
    | str text =>
      cases h
      exact ⟨_, rfl, .text text⟩
    | none | bool | int | float =>
      cases h
      exact ⟨_, rfl, .leaf rfl fun _ h => by cases h⟩
    | set items | frozenset items =>
      refine ⟨frozen, h, ?_⟩
      rw [PyValue.freeze] at h
      cases hitems : PyValue.freezeItems items with
      | error e => rw [hitems] at h; cases h
      | ok out =>
        rw [hitems] at h
        cases h
        exact .frozenset out
    | bytes | object => cases h
    | list | tuple | dict | frozenMapping => cases hunentered
  | list items ih =>
    intro hdistinct path frozen h
    rw [PyValue.freeze] at h
    cases hitems : PyValue.freezeItems items with
    | error e => rw [hitems] at h; cases h
    | ok out =>
      rw [hitems] at h
      cases h
      have hmembers := hdistinct.members_list
      obtain ⟨out', hout', hconceals⟩ := freeze_concealItems (PyValue.freezeItems_ok_iff.1 hitems)
        fun value hvalue => ih value hvalue (hmembers value hvalue) path
      refine ⟨.tuple out', ?_, hconceals⟩
      rw [conceal, PyValue.freeze, hout']
      rfl
  | tuple items ih =>
    intro hdistinct path frozen h
    rw [PyValue.freeze] at h
    cases hitems : PyValue.freezeItems items with
    | error e => rw [hitems] at h; cases h
    | ok out =>
      rw [hitems] at h
      cases h
      have hmembers := hdistinct.members_tuple
      obtain ⟨out', hout', hconceals⟩ := freeze_concealItems (PyValue.freezeItems_ok_iff.1 hitems)
        fun value hvalue => ih value hvalue (hmembers value hvalue) path
      refine ⟨.tuple out', ?_, hconceals⟩
      rw [conceal, PyValue.freeze, hout']
      rfl
  | dict items ih =>
    intro hdistinct path frozen h
    obtain ⟨texts, entries, rfl, hsteps, rfl⟩ := PyValue.freeze_dict_ok h
    obtain ⟨hnodup, hmembers⟩ := hdistinct.members_textDict
    have hshown : ∀ item ∈ texts, ∀ x, item.2.freeze = .ok x → ∃ y,
        (c.shown path item.1 (c.conceal textOf (c.next path item.1) item.2)).freeze = .ok y ∧
        (c.hides path item.1 = true → y = .str c.representation) ∧
        (c.hides path item.1 = false → Conceals c (c.next path item.1) x y) := by
      intro item hitem x hx
      have hmem := List.mem_map_of_mem (f := fun item : String × PyValue =>
        (PyValue.str item.1, item.2)) hitem
      exact shown_freeze (ih _ hmem (hmembers item hitem) _ x hx)
    have hwalked : ∀ key, (texts.map fun item =>
        (item.1, c.shown path item.1 (c.conceal textOf (c.next path item.1) item.2))).lookup key =
          (texts.lookup key).map fun x => c.shown path key (c.conceal textOf (c.next path key) x) :=
      fun key => lookup_map_entries
        (fun key x => c.shown path key (c.conceal textOf (c.next path key) x)) texts key
    have hget : ∀ key x, (PyValue.arranged entries).get key = some x ↔
        ∃ value, texts.lookup key = some value ∧ value.freeze = .ok x := by
      intro key x
      have hnodup' : (entries.map Prod.fst).Nodup := PyValue.freezesTo_keys hsteps ▸ hnodup
      rw [FrozenMapping.get, lookup_of_perm hnodup' (PyValue.arranged_perm entries)]
      exact PyValue.freezesTo_lookup hsteps key x
    have hfrozen : ∀ item ∈ texts, ∃ x, item.2.freeze = .ok x :=
      (PyValue.freezeEntries_returns_iff texts).1 ⟨entries, PyValue.freezeEntries_ok_iff.2 hsteps⟩
    have hkeys : ((texts.map fun item => (item.1, c.shown path item.1
        (c.conceal textOf (c.next path item.1) item.2))).map Prod.fst).Nodup := by
      rw [List.map_map]
      exact hnodup
    have hentries : ∀ entry ∈ texts.map fun item => (item.1, c.shown path item.1
        (c.conceal textOf (c.next path item.1) item.2)), ∃ frozen, entry.2.freeze = .ok frozen := by
      intro entry hentry
      obtain ⟨item, hitem, rfl⟩ := List.mem_map.1 hentry
      obtain ⟨x, hx⟩ := hfrozen item hitem
      obtain ⟨y, hy, -⟩ := hshown item hitem x hx
      exact ⟨y, hy⟩
    obtain ⟨out, hfreeze, hstrict, hout⟩ := freeze_outputOf
      (fun entry hentry => (lookup_eq_some_iff hkeys).2 hentry)
      (fun key hkey => mem_keys_of_lookup hkey) hentries
    rw [conceal, concealEntries_eq]
    refine ⟨.mapping out, hfreeze, conceals_mapping hstrict hout (fun key => ?_) fun key x hx => ?_⟩
    · rw [hwalked, Option.isSome_map, Bool.eq_iff_iff, Option.isSome_iff_exists,
        Option.isSome_iff_exists]
      constructor
      · rintro ⟨value, hvalue⟩
        obtain ⟨x, hx⟩ := hfrozen (key, value) (mem_of_lookup hvalue)
        exact ⟨x, (hget key x).2 ⟨value, hvalue, hx⟩⟩
      · rintro ⟨x, hx⟩
        obtain ⟨value, hvalue, -⟩ := (hget key x).1 hx
        exact ⟨value, hvalue⟩
    · obtain ⟨value, hvalue, hx⟩ := (hget key x).1 hx
      obtain ⟨y, hy, h⟩ := hshown (key, value) (mem_of_lookup hvalue) x hx
      exact ⟨_, y, by rw [hwalked, hvalue]; rfl, hy, h⟩
  | frozenMapping items =>
    intro _ path frozen h
    cases h
    exact freeze_concealFrozen c (.mapping items) path

end Concealment

end AiRetrieval
