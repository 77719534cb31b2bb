import AiRetrieval.Sanity.ConcealedValues

/-! What complete and exact concealment of the sensitive entries of a value means, for
every container a frozen value may hold them in. -/

namespace AiRetrieval

/-- The key or the dotted path of the entry is among the fields. -/
def Sensitive (fields : FrozenSet) (path : List String) (key : String) : Prop :=
  key ∈ fields.items ∨ ".".intercalate (path ++ [key]) ∈ fields.items

instance (fields : FrozenSet) (path : List String) (key : String) :
    Decidable (Sensitive fields path key) := inferInstanceAs (Decidable (_ ∨ _))

/-- Every sensitive entry, at any depth and in any container, carries the representation. -/
inductive Concealed (fields : FrozenSet) (representation : String) :
    List String → FrozenValue → Prop
  | leaf {path : List String} {value : FrozenValue} : value.leaf = true →
      Concealed fields representation path value
  | tuple {path : List String} {items : List FrozenValue} :
      (∀ value ∈ items, Concealed fields representation path value) →
      Concealed fields representation path (.tuple items)
  | frozenset {path : List String} {items : List FrozenValue} :
      (∀ value ∈ items, Concealed fields representation path value) →
      Concealed fields representation path (.frozenset items)
  | mapping {path : List String} {items : FrozenMapping} :
      (∀ entry ∈ items, Sensitive fields path entry.1 → entry.2 = .str representation) →
      (∀ entry ∈ items, ¬Sensitive fields path entry.1 →
        Concealed fields representation (path ++ [entry.1]) entry.2) →
      Concealed fields representation path (.mapping items)

/-- The two values have the same entries, and agree outside the sensitive ones; each
element of a set has its counterpart in the other. -/
inductive SameOutside (fields : FrozenSet) : List String → FrozenValue → FrozenValue → Prop
  | leaf {path : List String} {value : FrozenValue} : value.leaf = true →
      SameOutside fields path value value
  | tuple {path : List String} {items others : List FrozenValue} : items.length = others.length →
      (∀ (i : Nat) x y, items[i]? = some x → others[i]? = some y → SameOutside fields path x y) →
      SameOutside fields path (.tuple items) (.tuple others)
  | frozenset {path : List String} {items others : List FrozenValue}
      (there back : FrozenValue → FrozenValue) :
      (∀ x ∈ items, there x ∈ others) → (∀ x ∈ items, SameOutside fields path x (there x)) →
      (∀ y ∈ others, back y ∈ items) → (∀ y ∈ others, SameOutside fields path (back y) y) →
      SameOutside fields path (.frozenset items) (.frozenset others)
  | mapping {path : List String} {items others : FrozenMapping} :
      (∀ key, (others.get key).isSome = (items.get key).isSome) →
      (∀ key x y, items.get key = some x → others.get key = some y →
        ¬Sensitive fields path key → SameOutside fields (path ++ [key]) x y) →
      SameOutside fields path (.mapping items) (.mapping others)

/-- The two values are equal but for what lies under sensitive entries; a mapping's
entries are compared in their order, those of a set in any. -/
inductive EqualExcept (fields : FrozenSet) : List String → FrozenValue → FrozenValue → Prop
  | leaf {path : List String} {value : FrozenValue} : value.leaf = true →
      EqualExcept fields path value value
  | tuple {path : List String} {items others : List FrozenValue} : items.length = others.length →
      (∀ (i : Nat) x y, items[i]? = some x → others[i]? = some y → EqualExcept fields path x y) →
      EqualExcept fields path (.tuple items) (.tuple others)
  | frozenset {path : List String} {items others : List FrozenValue}
      (there back : FrozenValue → FrozenValue) :
      (∀ x ∈ items, there x ∈ others) → (∀ x ∈ items, EqualExcept fields path x (there x)) →
      (∀ y ∈ others, back y ∈ items) → (∀ y ∈ others, EqualExcept fields path (back y) y) →
      EqualExcept fields path (.frozenset items) (.frozenset others)
  | mapping {path : List String} {items others : FrozenMapping} :
      items.map Prod.fst = others.map Prod.fst →
      (∀ (i : Nat) x y, items[i]? = some x → others[i]? = some y → ¬Sensitive fields path x.1 →
        EqualExcept fields (path ++ [x.1]) x.2 y.2) →
      EqualExcept fields path (.mapping items) (.mapping others)

/-- Sets outside the sensitive entries hold no entry to conceal. -/
inductive SetsConcealed (fields : FrozenSet) (representation : String) :
    List String → FrozenValue → Prop
  | leaf {path : List String} {value : FrozenValue} : value.leaf = true →
      SetsConcealed fields representation path value
  | tuple {path : List String} {items : List FrozenValue} :
      (∀ value ∈ items, SetsConcealed fields representation path value) →
      SetsConcealed fields representation path (.tuple items)
  | frozenset {path : List String} {items : List FrozenValue} :
      (∀ value ∈ items, Concealed fields representation path value) →
      SetsConcealed fields representation path (.frozenset items)
  | mapping {path : List String} {items : FrozenMapping} :
      (∀ key x, items.get key = some x → ¬Sensitive fields path key →
        SetsConcealed fields representation (path ++ [key]) x) →
      SetsConcealed fields representation path (.mapping items)

variable {fields : FrozenSet} {representation : String} {path : List String}

theorem Concealed.of_tuple {items : List FrozenValue}
    (h : Concealed fields representation path (.tuple items)) :
    ∀ value ∈ items, Concealed fields representation path value := by
  cases h with
  | leaf h => cases h
  | tuple h => exact h

theorem Concealed.of_frozenset {items : List FrozenValue}
    (h : Concealed fields representation path (.frozenset items)) :
    ∀ value ∈ items, Concealed fields representation path value := by
  cases h with
  | leaf h => cases h
  | frozenset h => exact h

theorem Concealed.of_mapping {items : FrozenMapping}
    (h : Concealed fields representation path (.mapping items)) :
    (∀ entry ∈ items, Sensitive fields path entry.1 → entry.2 = .str representation) ∧
    ∀ entry ∈ items, ¬Sensitive fields path entry.1 →
      Concealed fields representation (path ++ [entry.1]) entry.2 := by
  cases h with
  | leaf h => cases h
  | mapping h h' => exact ⟨h, h'⟩

theorem SameOutside.of_tuple {items others : List FrozenValue}
    (h : SameOutside fields path (.tuple items) (.tuple others)) :
    ∀ (i : Nat) x y, items[i]? = some x → others[i]? = some y → SameOutside fields path x y := by
  cases h with
  | leaf h => cases h
  | tuple _ h => exact h

theorem SameOutside.of_mapping {items others : FrozenMapping}
    (h : SameOutside fields path (.mapping items) (.mapping others)) :
    ∀ key x y, items.get key = some x → others.get key = some y → ¬Sensitive fields path key →
      SameOutside fields (path ++ [key]) x y := by
  cases h with
  | leaf h => cases h
  | mapping _ h => exact h

theorem SetsConcealed.of_tuple {items : List FrozenValue}
    (h : SetsConcealed fields representation path (.tuple items)) :
    ∀ value ∈ items, SetsConcealed fields representation path value := by
  cases h with
  | leaf h => cases h
  | tuple h => exact h

theorem SetsConcealed.of_frozenset {items : List FrozenValue}
    (h : SetsConcealed fields representation path (.frozenset items)) :
    ∀ value ∈ items, Concealed fields representation path value := by
  cases h with
  | leaf h => cases h
  | frozenset h => exact h

theorem SetsConcealed.of_mapping {items : FrozenMapping}
    (h : SetsConcealed fields representation path (.mapping items)) :
    ∀ key x, items.get key = some x → ¬Sensitive fields path key →
      SetsConcealed fields representation (path ++ [key]) x := by
  cases h with
  | leaf h => cases h
  | mapping h => exact h

theorem SameOutside.refl (fields : FrozenSet) (value : FrozenValue) :
    ∀ path, SameOutside fields path value value := by
  induction value using FrozenValue.induction with
  | leaf value h => exact fun _ => .leaf h
  | tuple items ih =>
    refine fun path => .tuple rfl fun i x y hx hy => ?_
    rw [hx] at hy
    cases hy
    exact ih x (List.mem_of_getElem? hx) path
  | frozenset items ih =>
    exact fun path => .frozenset id id (fun _ h => h) (fun x hx => ih x hx path) (fun _ h => h)
      fun y hy => ih y hy path
  | mapping items ih =>
    refine fun path => .mapping (fun _ => rfl) fun key x y hx hy _ => ?_
    rw [hx] at hy
    cases hy
    exact ih (key, x) (mem_of_lookup hx) _

theorem EqualExcept.concealed {a b : FrozenValue} (h : EqualExcept fields path a b)
    (ha : Concealed fields representation path a) (hb : Concealed fields representation path b) :
    EqualExcept .none path a b := by
  induction h with
  | leaf h => exact .leaf h
  | tuple hlength _ ih =>
    exact .tuple hlength fun i x y hx hy => ih i x y hx hy
      (ha.of_tuple x (List.mem_of_getElem? hx)) (hb.of_tuple y (List.mem_of_getElem? hy))
  | frozenset there back hthere _ hback _ ih ih' =>
    exact .frozenset there back hthere
      (fun x hx => ih x hx (ha.of_frozenset x hx) (hb.of_frozenset _ (hthere x hx))) hback
      fun y hy => ih' y hy (ha.of_frozenset _ (hback y hy)) (hb.of_frozenset y hy)
  | @mapping path items others hkeys _ ih =>
    refine .mapping hkeys fun i x y hx hy _ => ?_
    have hkey : x.1 = y.1 := by
      have hi := congrArg (·[i]?) hkeys
      simpa [hx, hy] using hi
    have hxmem := List.mem_of_getElem? hx
    have hymem := List.mem_of_getElem? hy
    by_cases hsensitive : Sensitive fields path x.1
    · rw [ha.of_mapping.1 x hxmem hsensitive, hb.of_mapping.1 y hymem (hkey ▸ hsensitive)]
      exact .leaf rfl
    · exact ih i x y hx hy hsensitive (ha.of_mapping.2 x hxmem hsensitive)
        (hkey ▸ hb.of_mapping.2 y hymem (hkey ▸ hsensitive))

section Masking

variable {policy : SecurityPolicy}

theorem Concealment.Conceals.of_leaf {x y : FrozenValue} (h : (masking policy).Conceals path x y)
    (hleaf : x.leaf = true) : y = x := by
  cases h with
  | text value => rfl
  | leaf => rfl
  | tuple | frozenset | mapping => cases hleaf

theorem masking_hides_iff (path : List String) (key : String) :
    (masking policy).hides path key = true ↔ Sensitive policy.val.sensitiveFields path key := by
  simp [Concealment.hides, masking, Sensitive]

theorem masking_shows_iff (path : List String) (key : String) :
    (masking policy).hides path key = false ↔ ¬Sensitive policy.val.sensitiveFields path key := by
  rw [← masking_hides_iff, Bool.not_eq_true]

theorem get_of_mem {out : FrozenMapping} (h : out.Pairwise fun a b => a.1 < b.1)
    {entry : String × FrozenValue} (hentry : entry ∈ out) : out.get entry.1 = some entry.2 := by
  have hnodup : (out.map Prod.fst).Nodup := by
    rw [List.Nodup, List.pairwise_map]
    refine h.imp fun {a b} hlt heq => ?_
    rw [heq] at hlt
    exact Std.lt_irrefl hlt
  exact (lookup_eq_some_iff hnodup).2 hentry

theorem counterpart_at {α β : Type} {items : List α} {out : List β}
    (h : items.length = out.length) {i : Nat} {x : α} (hx : items[i]? = some x) :
    ∃ y, out[i]? = some y := by
  obtain ⟨hlt, -⟩ := List.getElem?_eq_some_iff.1 hx
  have hlt' : i < out.length := h ▸ hlt
  exact ⟨out[i], List.getElem?_eq_getElem hlt'⟩

theorem counterpart {α β : Type} {items : List α} {out : List β} (h : items.length = out.length)
    {x : α} (hx : x ∈ items) : ∃ (i : Nat) (y : β), items[i]? = some x ∧ out[i]? = some y := by
  obtain ⟨i, hi⟩ := List.getElem?_of_mem hx
  obtain ⟨y, hy⟩ := counterpart_at h hi
  exact ⟨i, y, hi, hy⟩

theorem masked_iff {x y : FrozenValue} (h : (masking policy).Conceals path x y) :
    (Concealed policy.val.sensitiveFields policy.val.maskingRepresentation path y ∧
      SameOutside policy.val.sensitiveFields path x y) ↔
      SetsConcealed policy.val.sensitiveFields policy.val.maskingRepresentation path x := by
  induction h with
  | text value => exact ⟨fun _ => .leaf rfl, fun _ => ⟨.leaf rfl, .leaf rfl⟩⟩
  | leaf h _ => exact ⟨fun _ => .leaf h, fun _ => ⟨.leaf h, .leaf h⟩⟩
  | @tuple path items out hlength _ ih =>
    constructor
    · rintro ⟨hconcealed, hsame⟩
      refine .tuple fun x hx => ?_
      obtain ⟨i, y, hx, hy⟩ := counterpart hlength hx
      exact (ih i x y hx hy).1
        ⟨hconcealed.of_tuple y (List.mem_of_getElem? hy), hsame.of_tuple i x y hx hy⟩
    · intro hsets
      have hboth := fun i x y hx hy =>
        (ih i x y hx hy).2 (hsets.of_tuple x (List.mem_of_getElem? hx))
      refine ⟨.tuple fun y hy => ?_, .tuple hlength fun i x y hx hy => (hboth i x y hx hy).2⟩
      obtain ⟨i, x, hy, hx⟩ := counterpart hlength.symm hy
      exact (hboth i x y hx hy).1
  | frozenset items =>
    exact ⟨fun h => .frozenset h.1.of_frozenset,
      fun hsets => ⟨.frozenset hsets.of_frozenset, .refl _ _ _⟩⟩
  | @mapping path items out hstrict hkeys hhidden _ ih =>
    have hpartner : ∀ key x, items.get key = some x → ∃ y, out.get key = some y := fun key x hx =>
      Option.isSome_iff_exists.1 (by rw [hkeys, hx]; rfl)
    have hpartner' : ∀ key y, out.get key = some y → ∃ x, items.get key = some x := fun key y hy =>
      Option.isSome_iff_exists.1 (by rw [← hkeys, hy]; rfl)
    constructor
    · rintro ⟨hconcealed, hsame⟩
      refine .mapping fun key x hx hsensitive => ?_
      obtain ⟨y, hy⟩ := hpartner key x hx
      exact (ih key x y hx hy ((masking_shows_iff path key).2 hsensitive)).1
        ⟨hconcealed.of_mapping.2 (key, y) (mem_of_lookup hy) hsensitive,
          hsame.of_mapping key x y hx hy hsensitive⟩
    · intro hsets
      have hboth := fun key x y hx hy hsensitive =>
        (ih key x y hx hy ((masking_shows_iff path key).2 hsensitive)).2
          (hsets.of_mapping key x hx hsensitive)
      refine ⟨.mapping (fun entry hentry hsensitive => ?_) fun entry hentry hsensitive => ?_,
        .mapping hkeys fun key x y hx hy hsensitive => (hboth key x y hx hy hsensitive).2⟩
      · have hy := get_of_mem hstrict hentry
        obtain ⟨x, hx⟩ := hpartner' _ _ hy
        exact hhidden _ x _ hx hy ((masking_hides_iff path entry.1).2 hsensitive)
      · have hy := get_of_mem hstrict hentry
        obtain ⟨x, hx⟩ := hpartner' _ _ hy
        exact (hboth _ x _ hx hy hsensitive).1

theorem lookup_counterpart {items others : FrozenMapping}
    (h : items.map Prod.fst = others.map Prod.fst) {key : String} {x : FrozenValue}
    (hx : items.get key = some x) : ∃ (i : Nat) (y : FrozenValue),
      items[i]? = some (key, x) ∧ others[i]? = some (key, y) ∧ others.get key = some y := by
  induction items generalizing others with
  | nil => cases hx
  | cons entry rest ih =>
    cases others with
    | nil => cases h
    | cons other rest' =>
      obtain ⟨first, value⟩ := entry
      obtain ⟨first', value'⟩ := other
      rw [List.map_cons, List.map_cons, List.cons.injEq] at h
      obtain ⟨hfirst, hrest⟩ := h
      dsimp only at hfirst
      subst hfirst
      rw [FrozenMapping.get, Dict.lookup_cons_ite] at hx
      by_cases hkey : key = first
      · subst hkey
        rw [if_pos rfl, Option.some.injEq] at hx
        subst hx
        exact ⟨0, value', rfl, rfl, by rw [FrozenMapping.get, Dict.lookup_cons_ite, if_pos rfl]⟩
      · rw [if_neg hkey] at hx
        obtain ⟨i, y, hi, hi', hy⟩ := ih hrest hx
        refine ⟨i + 1, y, hi, hi', ?_⟩
        rw [FrozenMapping.get, Dict.lookup_cons_ite, if_neg hkey]
        exact hy

theorem mem_keys_iff_get {out : FrozenMapping} {key : String} :
    key ∈ out.map Prod.fst ↔ (out.get key).isSome = true := by
  rw [FrozenMapping.get, List.lookup_isSome_iff, List.mem_map]
  exact exists_congr fun entry => and_congr_right fun _ => by rw [beq_iff_eq, eq_comm]

/-- Keys in increasing order are determined by which keys there are. -/
theorem strict_keys_eq {out out' : FrozenMapping} (h : out.Pairwise fun a b => a.1 < b.1)
    (h' : out'.Pairwise fun a b => a.1 < b.1)
    (hkeys : ∀ key, (out.get key).isSome = (out'.get key).isSome) :
    out.map Prod.fst = out'.map Prod.fst := by
  have hlt : (out.map Prod.fst).Pairwise (· < ·) := List.pairwise_map.2 h
  have hlt' : (out'.map Prod.fst).Pairwise (· < ·) := List.pairwise_map.2 h'
  have hne : ∀ {a b : String}, a < b → a ≠ b := fun hab heq => Std.lt_irrefl (heq ▸ hab)
  have hperm : (out.map Prod.fst).Perm (out'.map Prod.fst) := by
    rw [List.perm_ext_iff_of_nodup (hlt.imp hne) (hlt'.imp hne)]
    intro key
    rw [mem_keys_iff_get, mem_keys_iff_get, hkeys]
  refine hperm.eq_of_pairwise (fun a b _ _ hab hba => ?_) hlt hlt'
  exact absurd (Std.lt_trans hab hba) Std.lt_irrefl

/-- Two values that differ only under sensitive entries are masked alike. -/
theorem masked_equal {x x' y y' : FrozenValue}
    (h : EqualExcept policy.val.sensitiveFields path x x')
    (hy : (masking policy).Conceals path x y) (hy' : (masking policy).Conceals path x' y')
    (hsets : SetsConcealed policy.val.sensitiveFields policy.val.maskingRepresentation path x)
    (hsets' : SetsConcealed policy.val.sensitiveFields policy.val.maskingRepresentation path x') :
    EqualExcept .none path y y' := by
  induction h generalizing y y' with
  | leaf hleaf =>
    rw [hy.of_leaf hleaf, hy'.of_leaf hleaf]
    exact .leaf hleaf
  | tuple hlength _ ih =>
    cases hy with
    | leaf h => cases h
    | tuple hlength₁ hy =>
      cases hy' with
      | leaf h => cases h
      | tuple hlength₂ hy' =>
        refine .tuple (by omega) fun i u u' hu hu' => ?_
        obtain ⟨x, hx⟩ := counterpart_at hlength₁.symm hu
        obtain ⟨x', hx'⟩ := counterpart_at hlength₂.symm hu'
        exact ih i x x' hx hx' (hy i x u hx hu) (hy' i x' u' hx' hu')
          (hsets.of_tuple x (List.mem_of_getElem? hx))
            (hsets'.of_tuple x' (List.mem_of_getElem? hx'))
  | frozenset there back hthere hsame hback hsame' _ _ =>
    cases hy with
    | leaf h => cases h
    | frozenset =>
      cases hy' with
      | leaf h => cases h
      | frozenset =>
        exact (EqualExcept.frozenset there back hthere hsame hback hsame').concealed
          (.frozenset hsets.of_frozenset) (.frozenset hsets'.of_frozenset)
  | @mapping path items others hkeys _ ih =>
    cases hy with
    | leaf h => cases h
    | @mapping _ _ out hstrict hpresent hhidden hshown =>
      cases hy' with
      | leaf h => cases h
      | @mapping _ _ out' hstrict' hpresent' hhidden' hshown' =>
        have hsame : ∀ key, (out.get key).isSome = (out'.get key).isSome := by
          intro key
          rw [hpresent, hpresent', Bool.eq_iff_iff, ← mem_keys_iff_get, ← mem_keys_iff_get, hkeys]
        have hkeysout := strict_keys_eq hstrict hstrict' hsame
        refine .mapping hkeysout fun i u u' hu hu' _ => ?_
        have hkey : u.1 = u'.1 := by
          have hi := congrArg (·[i]?) hkeysout
          simpa [hu, hu'] using hi
        have hy := get_of_mem hstrict (List.mem_of_getElem? hu)
        have hy' := get_of_mem hstrict' (List.mem_of_getElem? hu')
        rw [← hkey] at hy'
        obtain ⟨x, hx⟩ : ∃ x, items.get u.1 = some x :=
          Option.isSome_iff_exists.1 (by rw [← hpresent, hy]; rfl)
        obtain ⟨j, x', hj, hj', hx'⟩ := lookup_counterpart hkeys hx
        by_cases hsensitive : Sensitive policy.val.sensitiveFields path u.1
        · have hhides := (masking_hides_iff path u.1).2 hsensitive
          rw [hhidden u.1 x u.2 hx hy hhides, hhidden' u.1 x' u'.2 hx' hy' hhides]
          exact .leaf rfl
        · have hshows := (masking_shows_iff path u.1).2 hsensitive
          exact ih j (u.1, x) (u.1, x') hj hj' hsensitive (hshown u.1 x u.2 hx hy hshows)
            (hshown' u.1 x' u'.2 hx' hy' hshows) (hsets.of_mapping u.1 x hx hsensitive)
            (hsets'.of_mapping u.1 x' hx' hsensitive)

end Masking

end AiRetrieval
