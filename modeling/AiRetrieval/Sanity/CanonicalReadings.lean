import AiRetrieval.Sanity.FrozenValues
import AiRetrieval.Spec.CanonicalValues

/-! Which frozen values have one canonical form. It reads a set as the tuple of its members in
the order of their texts, and a mapping as what it holds under each key. -/

namespace AiRetrieval

namespace CanonicalForm

variable {form : CanonicalForm} {runtime : PythonRuntime}

section Members

/-- The text a member of a set is sorted by. -/
def textOf (form : CanonicalForm) (runtime : PythonRuntime) (value : FrozenValue) : CodeText :=
  match form.canonicalValue runtime value with
  | .ok item => item.sorted.write form.style runtime.numberText
  | .error _ => []

/-- The members of a tuple, and those of a set in the order of their texts. -/
def members (form : CanonicalForm) (runtime : PythonRuntime) :
    FrozenValue → Option (List FrozenValue)
  | .tuple items => some items
  | .frozenset items =>
    some (items.insertionSort fun a b => textOf form runtime a ≤ textOf form runtime b)
  | _ => none

/-- Values a canonical form does not tell apart. -/
inductive Alike (form : CanonicalForm) (runtime : PythonRuntime) :
    FrozenValue → FrozenValue → Prop
  | leaf {value : FrozenValue} : value.leaf = true → Alike form runtime value value
  | sequence {v w : FrozenValue} {xs ys : List FrozenValue} :
      members form runtime v = some xs → members form runtime w = some ys →
      xs.length = ys.length →
      (∀ (i : Nat) x y, xs[i]? = some x → ys[i]? = some y → Alike form runtime x y) →
      Alike form runtime v w
  | mapping {items others : FrozenMapping} :
      (∀ key, (FrozenMapping.get items key).isSome = (FrozenMapping.get others key).isSome) →
      (∀ key x y, FrozenMapping.get items key = some x → FrozenMapping.get others key = some y →
        Alike form runtime x y) →
      Alike form runtime (.mapping items) (.mapping others)

end Members

section Reading

theorem canonicalItems_ok_iff {items : List FrozenValue} {docs : List Document} :
    form.canonicalItems runtime items = .ok docs ↔
      List.Forall₂ (fun value doc => form.canonicalValue runtime value = .ok doc) items docs := by
  induction items generalizing docs with
  | nil =>
    rw [List.forall₂_nil_left_iff, canonicalItems]
    exact ⟨fun h => (by cases h; rfl), fun h => (by rw [h])⟩
  | cons value rest ih =>
    rw [canonicalItems, except_bind_eq_ok, List.forall₂_cons_left_iff]
    constructor
    · rintro ⟨doc, hdoc, h⟩
      obtain ⟨others, hothers, h⟩ := except_bind_eq_ok.1 h
      cases h
      exact ⟨doc, others, hdoc, ih.1 hothers, rfl⟩
    · rintro ⟨doc, others, hdoc, hothers, rfl⟩
      exact ⟨doc, hdoc, except_bind_eq_ok.2 ⟨others, ih.2 hothers, rfl⟩⟩

theorem sortMembers_ok {items sorted : List Document}
    (h : form.sortMembers runtime items = .ok sorted) :
    sorted = items.insertionSort fun a b =>
      a.sorted.write form.style runtime.numberText ≤
        b.sorted.write form.style runtime.numberText := by
  obtain ⟨keyed, hkeyed, h⟩ := except_bind_eq_ok.1 h
  cases h
  have hpair {item : Document} {pair : CodeText × Document}
      (h : (do return (← sortText form runtime item, item)) = Except.ok (ε := PyError) pair) :
      pair = (item.sorted.write form.style runtime.numberText, item) := by
    obtain ⟨text, htext, h⟩ := except_bind_eq_ok.1 h
    unfold sortText at htext
    split at htext
    · cases htext
      cases h
      rfl
    · cases htext
  have hkeys : keyed = items.map fun item =>
      (item.sorted.write form.style runtime.numberText, item) := by
    clear h
    rw [except_mapM_ok_iff] at hkeyed
    induction hkeyed with
    | nil => rfl
    | cons hfirst _ ih => rw [List.map_cons, ← ih, hpair hfirst]
  rw [List.map_insertionSort (fun a b : CodeText × Document => a.1 ≤ b.1)
    (fun a b => a.sorted.write form.style runtime.numberText ≤
      b.sorted.write form.style runtime.numberText) Prod.snd keyed ?_]
  · rw [hkeys, List.map_map]
    exact congrArg _ (List.map_id _)
  · rw [hkeys]
    intro a ha b hb
    obtain ⟨item, -, rfl⟩ := List.mem_map.1 ha
    obtain ⟨other, -, rfl⟩ := List.mem_map.1 hb
    exact Iff.rfl

theorem canonicalValue_members {v : FrozenValue} {xs : List FrozenValue} {doc : Document}
    (hv : members form runtime v = some xs) (h : form.canonicalValue runtime v = .ok doc) :
    ∃ docs, doc = .array docs ∧
      List.Forall₂ (fun value doc => form.canonicalValue runtime value = .ok doc) xs docs := by
  cases v with
  | tuple items =>
    cases hv
    rw [canonicalValue] at h
    cases hitems : form.canonicalItems runtime xs with
    | error e => rw [hitems] at h; cases h
    | ok docs =>
      rw [hitems] at h
      cases h
      exact ⟨docs, rfl, canonicalItems_ok_iff.1 hitems⟩
  | frozenset items =>
    cases hv
    rw [canonicalValue] at h
    obtain ⟨docs, hdocs, h⟩ := except_bind_eq_ok.1 h
    cases hsorted : form.sortMembers runtime docs with
    | error e => rw [hsorted] at h; cases h
    | ok sorted =>
      rw [hsorted] at h
      cases h
      refine ⟨sorted, rfl, ?_⟩
      rw [canonicalItems_ok_iff, List.forall₂_iff_zip] at hdocs
      obtain ⟨hlength, hread⟩ := hdocs
      -- sort the pairs of a member and its reading
      have hitems : (items.zip docs).map Prod.fst = items := List.map_fst_zip hlength.le
      have hdocs : (items.zip docs).map Prod.snd = docs := List.map_snd_zip hlength.ge
      have hleft := List.map_insertionSort
        (fun a b : FrozenValue × Document => textOf form runtime a.1 ≤ textOf form runtime b.1)
        (fun a b => textOf form runtime a ≤ textOf form runtime b) Prod.fst (items.zip docs)
        fun _ _ _ _ => Iff.rfl
      have hright := List.map_insertionSort
        (fun a b : FrozenValue × Document => textOf form runtime a.1 ≤ textOf form runtime b.1)
        (fun a b : Document => a.sorted.write form.style runtime.numberText ≤
          b.sorted.write form.style runtime.numberText) Prod.snd (items.zip docs)
        fun a ha b hb => by
          unfold textOf
          rw [hread ha, hread hb]
      rw [hitems] at hleft
      rw [hdocs, ← sortMembers_ok hsorted] at hright
      rw [← hleft, ← hright, List.forall₂_map_left_iff, List.forall₂_map_right_iff,
        List.forall₂_same]
      exact fun pair hpair => hread ((List.mem_insertionSort _).1 hpair)
  | none | bool | int | float | str | mapping => cases hv

structure ReadsAs (form : CanonicalForm) (runtime : PythonRuntime) (seen : List String)
    (items : FrozenMapping) (entries : List (CodeText × Document)) : Prop where
  nodup : (entries.map Prod.fst).Nodup
  named : ∀ key ∈ entries.map Prod.fst, ∃ name, name ∉ seen ∧ key = CodeText.ofString name
  lookup : ∀ name doc, name ∉ seen → (entries.lookup (CodeText.ofString name) = some doc ↔
    ∃ value, FrozenMapping.get items name = some value ∧
      form.canonicalValue runtime value = .ok doc)
  read : ∀ name value, name ∉ seen → FrozenMapping.get items name = some value →
    ∃ doc, form.canonicalValue runtime value = .ok doc

theorem canonicalEntries_ok {seen : List String} {items : FrozenMapping}
    {entries : List (CodeText × Document)}
    (h : form.canonicalEntries runtime seen items = .ok entries) :
    ReadsAs form runtime seen items entries := by
  induction items generalizing seen entries with
  | nil =>
    rw [canonicalEntries] at h
    cases h
    refine ⟨List.nodup_nil, fun _ hkey => (by cases hkey), fun name doc _ => ?_,
      fun name value _ h => by cases h⟩
    exact iff_of_false (fun h => by cases h) (by rintro ⟨_, h, -⟩; cases h)
  | cons item rest ih =>
    obtain ⟨key, value⟩ := item
    have hget (name : String) : FrozenMapping.get ((key, value) :: rest) name =
        if name = key then some value else FrozenMapping.get rest name := Dict.lookup_cons_ite ..
    rw [canonicalEntries] at h
    by_cases hseen : key ∈ seen
    · rw [if_pos hseen] at h
      have hrest := ih h
      have hne {name : String} (hname : name ∉ seen) : name ≠ key := fun hk => hname (hk ▸ hseen)
      refine ⟨hrest.nodup, hrest.named, fun name doc hname => ?_, fun name value hname hvalue => ?_⟩
      · rw [hrest.lookup name doc hname, hget, if_neg (hne hname)]
      · rw [hget, if_neg (hne hname)] at hvalue
        exact hrest.read name value hname hvalue
    · rw [if_neg hseen] at h
      obtain ⟨doc, hdoc, h⟩ := except_bind_eq_ok.1 h
      obtain ⟨others, hothers, h⟩ := except_bind_eq_ok.1 h
      cases h
      have hrest := ih hothers
      have hlookup (name : String) :
          List.lookup (CodeText.ofString name) ((CodeText.ofString key, doc) :: others) =
            if name = key then some doc else others.lookup (CodeText.ofString name) := by
        rw [List.lookup_cons]
        by_cases hkey : name = key
        · rw [if_pos hkey, hkey, beq_self_eq_true]
        · rw [if_neg hkey, beq_false_of_ne fun h => hkey (CodeText.ofString_injective h)]
      have hnew {name : String} (hname : name ∉ seen) (hkey : name ≠ key) : name ∉ key :: seen := by
        intro hmem
        rcases List.mem_cons.1 hmem with h | h
        · exact hkey h
        · exact hname h
      refine ⟨?_, ?_, fun name found hname => ?_, fun name found hname hfound => ?_⟩
      · rw [List.map_cons, List.nodup_cons]
        refine ⟨fun hmem => ?_, hrest.nodup⟩
        obtain ⟨name, hname, hkey⟩ := hrest.named _ hmem
        exact hname (CodeText.ofString_injective hkey ▸ List.mem_cons_self ..)
      · rw [List.map_cons, List.forall_mem_cons]
        refine ⟨⟨key, hseen, rfl⟩, fun other hother => ?_⟩
        obtain ⟨name, hname, hkey⟩ := hrest.named other hother
        exact ⟨name, fun hmem => hname (List.mem_cons_of_mem _ hmem), hkey⟩
      · rw [hlookup, hget]
        by_cases hkey : name = key
        · rw [if_pos hkey, if_pos hkey]
          constructor
          · intro h
            exact ⟨value, rfl, by rw [hdoc, Option.some.inj h]⟩
          · rintro ⟨_, hvalue, hread⟩
            cases hvalue
            rw [hdoc] at hread
            rw [Except.ok.inj hread]
        · rw [if_neg hkey, if_neg hkey]
          exact hrest.lookup name found (hnew hname hkey)
      · rw [hget] at hfound
        by_cases hkey : name = key
        · rw [if_pos hkey] at hfound
          cases hfound
          exact ⟨doc, hdoc⟩
        · rw [if_neg hkey] at hfound
          exact hrest.read name found (hnew hname hkey) hfound

theorem canonicalValue_mapping {items : FrozenMapping} {doc : Document}
    (h : form.canonicalValue runtime (.mapping items) = .ok doc) :
    ∃ entries, doc = .object entries ∧ ReadsAs form runtime [] items entries := by
  rw [canonicalValue] at h
  cases hentries : form.canonicalEntries runtime [] items with
  | error e => rw [hentries] at h; cases h
  | ok entries =>
    rw [hentries] at h
    cases h
    exact ⟨entries, rfl, canonicalEntries_ok hentries⟩

/-- What is read of a value that holds no other. -/
theorem canonicalValue_leaf {v : FrozenValue} {doc : Document} (hv : v.leaf = true)
    (h : form.canonicalValue runtime v = .ok doc) : doc = match v with
      | .bool value => .bool value
      | .int value => .int value
      | .float value => .float value
      | .str value => .text (CodeText.ofString value)
      | _ => .null := by
  cases v with
  | float value =>
    rw [canonicalValue] at h
    split at h
    · cases h
      rfl
    · cases h
  | none | bool | int | str =>
    rw [canonicalValue] at h
    cases h
    rfl
  | tuple | frozenset | mapping => cases hv

theorem canonicalValue_leaf_injective {v w : FrozenValue} {doc : Document} (hv : v.leaf = true)
    (hw : w.leaf = true) (h : form.canonicalValue runtime v = .ok doc)
    (h' : form.canonicalValue runtime w = .ok doc) : v = w := by
  have heq := (canonicalValue_leaf hv h).symm.trans (canonicalValue_leaf hw h')
  cases v with
  | none =>
    cases w with
    | none => rfl
    | bool | int | float | str => cases heq
    | tuple | frozenset | mapping => cases hw
  | bool | int | float =>
    cases w with
    | none | str => cases heq
    | bool | int | float =>
      cases heq
      try rfl
    | tuple | frozenset | mapping => cases hw
  | str value =>
    cases w with
    | none | bool | int | float => cases heq
    | str other =>
      injection heq with heq
      rw [CodeText.ofString_injective heq]
    | tuple | frozenset | mapping => cases hw
  | tuple | frozenset | mapping => cases hv

def branching : Document → Bool
  | .array _ | .object _ => true
  | _ => false

theorem branching_sorted (doc : Document) : branching doc.sorted = branching doc := by
  cases doc with
  | array | object => rfl
  | null | bool | int | float | text => rfl

theorem sorted_of_not_branching {doc : Document} (h : branching doc = false) :
    doc.sorted = doc := by
  cases doc with
  | array | object => cases h
  | null | bool | int | float | text => rfl

theorem branching_canonicalValue {v : FrozenValue} {doc : Document}
    (h : form.canonicalValue runtime v = .ok doc) : branching doc = !v.leaf := by
  cases hv : v.leaf with
  | true =>
    rw [canonicalValue_leaf hv h]
    cases v with
    | none | bool | int | float | str => rfl
    | tuple | frozenset | mapping => cases hv
  | false =>
    cases v with
    | none | bool | int | float | str => cases hv
    | tuple items =>
      obtain ⟨docs, rfl, -⟩ := canonicalValue_members rfl h
      rfl
    | frozenset items =>
      obtain ⟨docs, rfl, -⟩ := canonicalValue_members rfl h
      rfl
    | mapping items =>
      obtain ⟨entries, rfl, -⟩ := canonicalValue_mapping h
      rfl

end Reading

section Telling

theorem readings_eq_iff {xs ys : List FrozenValue} {docs others : List Document}
    (hxs : List.Forall₂ (fun value doc => form.canonicalValue runtime value = .ok doc) xs docs)
    (hys : List.Forall₂ (fun value doc => form.canonicalValue runtime value = .ok doc) ys others)
    (ih : ∀ x ∈ xs, ∀ y a b, form.canonicalValue runtime x = .ok a →
      form.canonicalValue runtime y = .ok b → (a.sorted = b.sorted ↔ Alike form runtime x y)) :
    docs.map JsonValue.sorted = others.map JsonValue.sorted ↔ xs.length = ys.length ∧
      ∀ (i : Nat) x y, xs[i]? = some x → ys[i]? = some y → Alike form runtime x y := by
  induction hxs generalizing ys others with
  | nil =>
    cases hys with
    | nil => exact iff_of_true rfl ⟨rfl, fun i x y hx => by cases hx⟩
    | cons => exact iff_of_false (fun h => by cases h) (fun h => by cases h.1)
  | @cons x a xs docs hx _ ihxs =>
    cases hys with
    | nil => exact iff_of_false (fun h => by cases h) (fun h => by cases h.1)
    | @cons y b ys others hy hys =>
      rw [List.forall_mem_cons] at ih
      rw [List.map_cons, List.map_cons, List.cons.injEq, ih.1 y a b hx hy, ihxs hys ih.2,
        List.length_cons, List.length_cons]
      constructor
      · rintro ⟨hfirst, hlength, hrest⟩
        refine ⟨by rw [hlength], fun i => ?_⟩
        cases i with
        | zero =>
          intro x' y' hx' hy'
          cases hx'
          cases hy'
          exact hfirst
        | succ i => exact hrest i
      · rintro ⟨hlength, halike⟩
        exact ⟨halike 0 x y rfl rfl, Nat.succ.inj hlength, fun i => halike (i + 1)⟩

theorem members_leaf {v : FrozenValue} (h : v.leaf = true) : members form runtime v = none := by
  cases v with
  | none | bool | int | float | str => rfl
  | tuple | frozenset | mapping => cases h

theorem alike_members_iff {v w : FrozenValue} {xs : List FrozenValue} {a b : Document}
    (hv : members form runtime v = some xs)
    (ih : ∀ x ∈ xs, ∀ y a b, form.canonicalValue runtime x = .ok a →
      form.canonicalValue runtime y = .ok b → (a.sorted = b.sorted ↔ Alike form runtime x y))
    (ha : form.canonicalValue runtime v = .ok a) (hb : form.canonicalValue runtime w = .ok b) :
    a.sorted = b.sorted ↔ Alike form runtime v w := by
  obtain ⟨docs, rfl, hdocs⟩ := canonicalValue_members hv ha
  cases hw : members form runtime w with
  | none =>
    refine iff_of_false (fun h => ?_) (fun h => ?_)
    · cases w with
      | tuple | frozenset => cases hw
      | mapping =>
        obtain ⟨entries, rfl, -⟩ := canonicalValue_mapping hb
        cases h
      | none | bool | int | float | str =>
        have hbranching := branching_canonicalValue hb
        rw [← branching_sorted, ← h] at hbranching
        cases hbranching
    · cases h with
      | leaf h =>
        rw [members_leaf h] at hv
        cases hv
      | sequence _ hys =>
        rw [hw] at hys
        cases hys
      | mapping => cases hv
  | some ys =>
    obtain ⟨others, rfl, hothers⟩ := canonicalValue_members hw hb
    rw [JsonValue.sorted, JsonValue.sorted, JsonValue.sortedItems_eq_map,
      JsonValue.sortedItems_eq_map, JsonValue.array.injEq, readings_eq_iff hdocs hothers ih]
    constructor
    · rintro ⟨hlength, halike⟩
      exact .sequence hv hw hlength halike
    · intro h
      cases h with
      | leaf h =>
        rw [members_leaf h] at hv
        cases hv
      | sequence hxs hys hlength halike =>
        cases hv.symm.trans hxs
        cases hw.symm.trans hys
        exact ⟨hlength, halike⟩
      | mapping => cases hv

theorem alike_mapping_iff {items others : FrozenMapping}
    {entries entries' : List (CodeText × Document)}
    (h : ReadsAs form runtime [] items entries) (h' : ReadsAs form runtime [] others entries')
    (ih : ∀ entry ∈ items, ∀ y a b, form.canonicalValue runtime entry.2 = .ok a →
      form.canonicalValue runtime y = .ok b →
      (a.sorted = b.sorted ↔ Alike form runtime entry.2 y)) :
    (JsonValue.object entries).sorted = (JsonValue.object entries').sorted ↔
      Alike form runtime (.mapping items) (.mapping others) := by
  have hnew (name : String) : name ∉ ([] : List String) := List.not_mem_nil
  rw [JsonValue.sorted, JsonValue.sorted, JsonValue.object.injEq,
    JsonValue.sortEntries_eq_iff (by rw [JsonValue.sortedEntries_keys]; exact h.nodup)
      (by rw [JsonValue.sortedEntries_keys]; exact h'.nodup)]
  simp only [JsonValue.lookup_sortedEntries]
  constructor
  · intro hlookup
    refine .mapping (fun name => ?_) (fun name x y hx hy => ?_)
    · have hname := hlookup (CodeText.ofString name)
      cases hx : FrozenMapping.get items name with
      | some x =>
        obtain ⟨a, ha⟩ := h.read name x (hnew name) hx
        rw [(h.lookup name a (hnew name)).2 ⟨x, hx, ha⟩] at hname
        cases hb : entries'.lookup (CodeText.ofString name) with
        | none => rw [hb] at hname; cases hname
        | some b =>
          obtain ⟨y, hy, -⟩ := (h'.lookup name b (hnew name)).1 hb
          rw [hy]
          rfl
      | none =>
        cases hy : FrozenMapping.get others name with
        | none => rfl
        | some y =>
          obtain ⟨b, hb⟩ := h'.read name y (hnew name) hy
          rw [(h'.lookup name b (hnew name)).2 ⟨y, hy, hb⟩] at hname
          cases ha : entries.lookup (CodeText.ofString name) with
          | none => rw [ha] at hname; cases hname
          | some a =>
            obtain ⟨x, hx', -⟩ := (h.lookup name a (hnew name)).1 ha
            rw [hx] at hx'
            cases hx'
    · obtain ⟨a, ha⟩ := h.read name x (hnew name) hx
      obtain ⟨b, hb⟩ := h'.read name y (hnew name) hy
      have hname := hlookup (CodeText.ofString name)
      rw [(h.lookup name a (hnew name)).2 ⟨x, hx, ha⟩,
        (h'.lookup name b (hnew name)).2 ⟨y, hy, hb⟩] at hname
      exact (ih _ (mem_of_lookup hx) y a b ha hb).1 (Option.some.inj hname)
  · intro halike key
    cases halike with
    | sequence hxs => cases hxs
    | leaf hleaf => cases hleaf
    | mapping hsame halike =>
      cases ha : entries.lookup key with
      | some a =>
        obtain ⟨name, hname, rfl⟩ := h.named key (List.mem_map_of_mem (f := Prod.fst)
          (mem_of_lookup ha))
        obtain ⟨x, hx, hread⟩ := (h.lookup name a hname).1 ha
        have hsome := hsame name
        rw [hx] at hsome
        obtain ⟨y, hy⟩ := Option.isSome_iff_exists.1 hsome.symm
        obtain ⟨b, hb⟩ := h'.read name y hname hy
        rw [(h'.lookup name b hname).2 ⟨y, hy, hb⟩, Option.map_some, Option.map_some,
          (ih _ (mem_of_lookup hx) y a b hread hb).2 (halike name x y hx hy)]
      | none =>
        cases hb : entries'.lookup key with
        | none => rfl
        | some b =>
          obtain ⟨name, hname, rfl⟩ := h'.named key (List.mem_map_of_mem (f := Prod.fst)
            (mem_of_lookup hb))
          obtain ⟨y, hy, -⟩ := (h'.lookup name b hname).1 hb
          have hsome := hsame name
          rw [hy] at hsome
          obtain ⟨x, hx⟩ := Option.isSome_iff_exists.1 hsome
          obtain ⟨a, hread⟩ := h.read name x hname hx
          rw [(h.lookup name a hname).2 ⟨x, hx, hread⟩] at ha
          cases ha

theorem alike_iff {v w : FrozenValue} {a b : Document} (ha : form.canonicalValue runtime v = .ok a)
    (hb : form.canonicalValue runtime w = .ok b) :
    a.sorted = b.sorted ↔ Alike form runtime v w := by
  induction v using FrozenValue.induction generalizing w a b with
  | leaf v hv =>
    have hbranching := branching_canonicalValue ha
    rw [hv] at hbranching
    rw [sorted_of_not_branching hbranching]
    constructor
    · intro h
      have hw : branching b = false := by
        rw [← branching_sorted, ← h]
        exact hbranching
      have hleaf : w.leaf = true := by
        have := branching_canonicalValue hb
        rw [hw] at this
        cases hwl : w.leaf with
        | true => rfl
        | false =>
          rw [hwl] at this
          cases this
      rw [sorted_of_not_branching hw] at h
      rw [canonicalValue_leaf_injective hv hleaf ha (h ▸ hb)]
      exact .leaf hleaf
    · intro h
      cases h with
      | leaf =>
        cases ha.symm.trans hb
        exact (sorted_of_not_branching hbranching).symm
      | sequence hxs =>
        rw [members_leaf hv] at hxs
        cases hxs
      | mapping => cases hv
  | tuple items ih => exact alike_members_iff rfl (fun x hx y a b => ih x hx) ha hb
  | frozenset items ih =>
    exact alike_members_iff rfl (fun x hx y a b => ih x ((List.mem_insertionSort _).1 hx)) ha hb
  | mapping items ih =>
    obtain ⟨entries, rfl, hentries⟩ := canonicalValue_mapping ha
    cases w with
    | mapping others =>
      obtain ⟨entries', rfl, hentries'⟩ := canonicalValue_mapping hb
      exact alike_mapping_iff hentries hentries' fun entry hentry y a b => ih entry hentry
    | none | bool | int | float | str =>
      refine iff_of_false (fun h => ?_) (fun h => ?_)
      · have hbranching := branching_canonicalValue hb
        rw [← branching_sorted, ← h] at hbranching
        cases hbranching
      · cases h with
        | sequence hxs => cases hxs
    | tuple | frozenset =>
      refine iff_of_false (fun h => ?_) (fun h => ?_)
      · obtain ⟨docs, rfl, -⟩ := canonicalValue_members rfl hb
        cases h
      · cases h with
        | sequence hxs => cases hxs

end Telling

section Encoding

theorem canonicalValue_finite {v : FrozenValue} {doc : Document}
    (h : form.canonicalValue runtime v = .ok doc) :
    doc.Floats fun value => value.isFinite = true := by
  have hmembers {v : FrozenValue} {xs : List FrozenValue} {doc : Document}
      (hv : members form runtime v = some xs)
      (ih : ∀ x ∈ xs, ∀ doc, form.canonicalValue runtime x = .ok doc →
        doc.Floats fun value => value.isFinite = true)
      (h : form.canonicalValue runtime v = .ok doc) :
      doc.Floats fun value => value.isFinite = true := by
    obtain ⟨docs, rfl, hdocs⟩ := canonicalValue_members hv h
    rw [JsonValue.Floats, JsonValue.floatsItems_iff]
    clear hv h
    induction hdocs with
    | nil => exact fun _ hmem => by cases hmem
    | cons hfirst _ ihrest =>
      rw [List.forall_mem_cons] at ih ⊢
      exact ⟨ih.1 _ hfirst, ihrest ih.2⟩
  induction v using FrozenValue.induction generalizing doc with
  | leaf v hv =>
    cases v with
    | float value =>
      rw [canonicalValue] at h
      split at h
      · next hfinite =>
        cases h
        exact hfinite
      · cases h
    | none | bool | int | str =>
      rw [canonicalValue] at h
      cases h
      trivial
    | tuple | frozenset | mapping => cases hv
  | tuple items ih => exact hmembers rfl (fun x hx doc => ih x hx) h
  | frozenset items ih =>
    exact hmembers rfl (fun x hx doc => ih x ((List.mem_insertionSort _).1 hx)) h
  | mapping items ih =>
    obtain ⟨entries, rfl, hentries⟩ := canonicalValue_mapping h
    rw [JsonValue.Floats, JsonValue.floatsEntries_iff]
    rintro ⟨key, doc⟩ hentry
    obtain ⟨name, hname, rfl⟩ := hentries.named key (List.mem_map_of_mem (f := Prod.fst) hentry)
    have hlookup := (lookup_eq_some_iff hentries.nodup).2 hentry
    obtain ⟨value, hvalue, hread⟩ := (hentries.lookup name doc hname).1 hlookup
    exact ih _ (mem_of_lookup hvalue) hread

theorem encodeText_injective {s t : CodeText} {bytes : Bytes} (hs : encodeText s = .ok bytes)
    (ht : encodeText t = .ok bytes) : s = t := by
  unfold encodeText at hs ht
  cases hsome : s.string? with
  | none => rw [hsome] at hs; cases hs
  | some a =>
    cases htome : t.string? with
    | none => rw [htome] at ht; cases ht
    | some b =>
      rw [hsome] at hs
      rw [htome] at ht
      have hab : a = b :=
        CodeText.utf8_injective ((Except.ok.inj hs).trans (Except.ok.inj ht).symm)
      rw [CodeText.string?_eq_some.1 hsome, CodeText.string?_eq_some.1 htome, hab]

theorem encoded_eq_iff {valid : PyFloat → Prop}
    (hfloat : JsonValue.FloatTexts valid runtime.numberText) {a b : Document} (ha : a.Floats valid)
    (hb : b.Floats valid) {bytes bytes' : Bytes}
    (h : (CanonicalPayload.dumps runtime a >>= encodeText) = .ok bytes)
    (h' : (CanonicalPayload.dumps runtime b >>= encodeText) = .ok bytes') :
    bytes = bytes' ↔ a.sorted = b.sorted := by
  obtain ⟨text, htext, h⟩ := except_bind_eq_ok.1 h
  obtain ⟨text', htext', h'⟩ := except_bind_eq_ok.1 h'
  have hdumps {doc : Document} {text : CodeText}
      (h : CanonicalPayload.dumps runtime doc = .ok text) :
      text = doc.sorted.render runtime.numberText := by
    unfold CanonicalPayload.dumps at h
    split at h
    · exact (Except.ok.inj h).symm
    · cases h
  constructor
  · rintro rfl
    have heq := encodeText_injective h h'
    rw [hdumps htext, hdumps htext'] at heq
    exact JsonValue.render_injective hfloat (JsonValue.floats_sorted ha)
      (JsonValue.floats_sorted hb) heq
  · intro hsorted
    rw [hdumps htext, hsorted, ← hdumps htext', h'] at h
    exact (Except.ok.inj h).symm

end Encoding

end CanonicalForm

end AiRetrieval
