import AiRetrieval.Sanity.CanonicalReadings
import AiRetrieval.Sanity.ParsedDocuments

/-! The values that canonical JSON is made for, when two of them are the same JSON value, and
what `_canonical_plain` makes of one. -/

namespace AiRetrieval

namespace ProviderValue

def keyed (entries : List (CodeText × ProviderValue)) : ProviderValue :=
  .mapping (entries.map fun entry => (.str entry.1, entry.2))

def elements : ProviderValue → Option (List ProviderValue)
  | .list items | .tuple items => some items
  | _ => Option.none

/-- Null, booleans, integers, texts without lone surrogates, lists and tuples, and mappings with
distinct text keys. -/
inductive JsonData : ProviderValue → Prop
  | none : JsonData .none
  | bool (value : Bool) : JsonData (.bool value)
  | int (value : Int) : JsonData (.int value)
  | str {text : CodeText} (clean : (text.string?).isSome = true) : JsonData (.str text)
  | sequence {value : ProviderValue} {items : List ProviderValue}
      (listed : value.elements = some items) (each : ∀ item ∈ items, JsonData item) :
      JsonData value
  | mapping {entries : List (CodeText × ProviderValue)}
      (clean : ∀ entry ∈ entries, (entry.1.string?).isSome = true)
      (distinct : (entries.map Prod.fst).Nodup) (each : ∀ entry ∈ entries, JsonData entry.2) :
      JsonData (keyed entries)

/-- The same JSON value: lists and tuples item by item, mappings key by key. -/
inductive SameJson : ProviderValue → ProviderValue → Prop
  | none : SameJson .none .none
  | bool (value : Bool) : SameJson (.bool value) (.bool value)
  | int (value : Int) : SameJson (.int value) (.int value)
  | str (text : CodeText) : SameJson (.str text) (.str text)
  | sequence {v w : ProviderValue} {xs ys : List ProviderValue} (listed : v.elements = some xs)
      (listed' : w.elements = some ys) (length : xs.length = ys.length)
      (each : ∀ (i : Nat) x y, xs[i]? = some x → ys[i]? = some y → SameJson x y) : SameJson v w
  | mapping {entries others : List (CodeText × ProviderValue)}
      (keys : ∀ key, key ∈ entries.map Prod.fst ↔ key ∈ others.map Prod.fst)
      (each : ∀ key x y, (key, x) ∈ entries → (key, y) ∈ others → SameJson x y) :
      SameJson (keyed entries) (keyed others)

mutual

def integers : ProviderValue → List Int
  | .int value => [value]
  | .list items | .tuple items => integersItems items
  | .mapping items => integersEntries items
  | _ => []

def integersItems : List ProviderValue → List Int
  | [] => []
  | item :: rest => integers item ++ integersItems rest

def integersEntries : List (ProviderValue × ProviderValue) → List Int
  | [] => []
  | (_, item) :: rest => integers item ++ integersEntries rest

end

mutual

def document : ProviderValue → Document
  | .bool value => .bool value
  | .int value => .int value
  | .str value => .text value
  | .list items | .tuple items => .array (documents items)
  | .mapping items => .object (documentEntries items)
  | _ => .null

def documents : List ProviderValue → List Document
  | [] => []
  | item :: rest => document item :: documents rest

def documentEntries : List (ProviderValue × ProviderValue) → List (CodeText × Document)
  | [] => []
  | (.str name, item) :: rest => (name, document item) :: documentEntries rest
  | (_, _) :: rest => documentEntries rest

end

section Shapes

variable {value : ProviderValue} {items : List ProviderValue}
  {entries : List (CodeText × ProviderValue)}

theorem elements_eq (h : value.elements = some items) : value = .list items ∨ value =
    .tuple items := by
  cases value with
  | list others =>
    cases h
    exact Or.inl rfl
  | tuple others =>
    cases h
    exact Or.inr rfl
  | none | bool | int | float | str | bytes | bytearray | mapping | sequence | object => cases h

theorem documents_eq_map : documents items = items.map document := by
  induction items with
  | nil => rfl
  | cons item rest ih => rw [documents, List.map_cons, ih]

theorem document_of_elements (h : value.elements = some items) :
    value.document = .array (items.map document) := by
  rcases elements_eq h with rfl | rfl <;> rw [document, documents_eq_map]

theorem document_keyed :
    (keyed entries).document = .object (entries.map fun entry => (entry.1, entry.2.document)) := by
  rw [keyed, document]
  congr 1
  induction entries with
  | nil => rfl
  | cons entry rest ih => rw [List.map_cons, List.map_cons, documentEntries, ih]

theorem keyed_injective : Function.Injective keyed := by
  intro entries others h
  refine List.map_injective_iff.2 (fun a b hab => ?_) (ProviderValue.mapping.inj h)
  obtain ⟨hkey, hvalue⟩ := Prod.mk.inj hab
  exact Prod.ext (ProviderValue.str.inj hkey) hvalue

theorem JsonData.listed (h : value.JsonData) (hlisted : value.elements = some items) :
    ∀ item ∈ items, item.JsonData := by
  cases h with
  | sequence listed each =>
    rw [hlisted] at listed
    cases listed
    exact each
  | none | bool | int | str | mapping => cases hlisted

theorem JsonData.paired (h : (keyed entries).JsonData) :
    (entries.map Prod.fst).Nodup ∧ ∀ entry ∈ entries, entry.2.JsonData := by
  generalize hvalue : keyed entries = value at h
  cases h with
  | mapping clean distinct each =>
    rw [keyed_injective hvalue]
    exact ⟨distinct, each⟩
  | sequence listed =>
    rw [← hvalue] at listed
    cases listed
  | none | bool | int | str => cases hvalue

theorem mem_integersItems {number : Int} :
    number ∈ integersItems items ↔ ∃ item ∈ items, number ∈ item.integers := by
  induction items with
  | nil => simp [integersItems]
  | cons item rest ih => rw [integersItems, List.mem_append, ih, List.exists_mem_cons_iff]

theorem mem_integers_of_elements (h : value.elements = some items) {number : Int} :
    number ∈ value.integers ↔ ∃ item ∈ items, number ∈ item.integers := by
  rcases elements_eq h with rfl | rfl <;> rw [integers, mem_integersItems]

theorem mem_integers_keyed {number : Int} :
    number ∈ (keyed entries).integers ↔ ∃ entry ∈ entries, number ∈ entry.2.integers := by
  rw [keyed, integers]
  induction entries with
  | nil => simp [integersEntries]
  | cons entry rest ih =>
    rw [List.map_cons, integersEntries, List.mem_append, ih, List.exists_mem_cons_iff]

end Shapes

end ProviderValue

namespace CanonicalPayload

open ProviderValue StructuredOutputParser

section Printing

theorem printableItems_iff {items : List Document} :
    printableItems items = true ↔ ∀ item ∈ items, printable item = true := by
  induction items with
  | nil => exact iff_of_true rfl fun _ h => (by cases h)
  | cons item rest ih => rw [printableItems, Bool.and_eq_true, ih, List.forall_mem_cons]

theorem printableEntries_iff {entries : List (CodeText × Document)} :
    printableEntries entries = true ↔ ∀ entry ∈ entries, printable entry.2 = true := by
  induction entries with
  | nil => exact iff_of_true rfl fun _ h => (by cases h)
  | cons entry rest ih => rw [printableEntries, Bool.and_eq_true, ih, List.forall_mem_cons]

theorem printable_document_iff {value : ProviderValue} (h : value.JsonData) :
    printable value.document = true ↔
      ∀ number ∈ value.integers, number.natAbs < 10 ^ maxStrDigits := by
  induction h with
  | none | bool | str => simp [document, printable, integers]
  | int number => simp [document, printable, integers]
  | sequence listed _ ih =>
    rw [document_of_elements listed, printable, printableItems_iff]
    simp only [mem_integers_of_elements listed]
    constructor
    · rintro hall number ⟨item, hitem, hnumber⟩
      exact (ih item hitem).1 (hall _ (List.mem_map_of_mem hitem)) number hnumber
    · intro hall document hdocument
      obtain ⟨item, hitem, rfl⟩ := List.mem_map.1 hdocument
      exact (ih item hitem).2 fun number hnumber => hall number ⟨item, hitem, hnumber⟩
  | mapping _ _ _ ih =>
    rw [document_keyed, printable, printableEntries_iff]
    simp only [mem_integers_keyed]
    constructor
    · rintro hall number ⟨entry, hentry, hnumber⟩
      exact (ih entry hentry).1 (hall _ (List.mem_map_of_mem hentry)) number hnumber
    · intro hall pair hpair
      obtain ⟨entry, hentry, rfl⟩ := List.mem_map.1 hpair
      exact (ih entry hentry).2 fun number hnumber => hall number ⟨entry, hentry, hnumber⟩

end Printing

section Reading

theorem height_pos (value : ProviderValue) : 0 < height value := by
  cases value <;> simp [height]

theorem canonicalItems_eq {items : List ProviderValue} {n : Nat}
    (h : ∀ item ∈ items, canonicalPlain item n =
      if height item ≤ n then .ok item.document else .error recursionError) :
    canonicalItems items n =
      if heightItems items ≤ n then .ok (items.map document) else .error recursionError := by
  induction items with
  | nil => rw [heightItems, if_pos (Nat.zero_le n)]; rfl
  | cons item rest ih =>
    rw [List.forall_mem_cons] at h
    rw [canonicalItems, h.1, ih h.2, heightItems]
    by_cases hitem : height item ≤ n
    · by_cases hrest : heightItems rest ≤ n
      · rw [if_pos hitem, if_pos hrest, if_pos (Nat.max_le.2 ⟨hitem, hrest⟩)]
        rfl
      · rw [if_pos hitem, if_neg hrest, if_neg fun hmax => hrest (Nat.max_le.1 hmax).2]
        rfl
    · rw [if_neg hitem, if_neg fun hmax => hitem (Nat.max_le.1 hmax).1]
      rfl

theorem canonicalEntries_eq {entries : List (CodeText × ProviderValue)} {n : Nat}
    (h : ∀ entry ∈ entries, canonicalPlain entry.2 n =
      if height entry.2 ≤ n then .ok entry.2.document else .error recursionError) :
    canonicalEntries (entries.map fun entry => (.str entry.1, entry.2)) n =
      if heightEntries (entries.map fun entry => (.str entry.1, entry.2)) ≤ n then
        .ok (entries.map fun entry => (entry.1, entry.2.document))
      else .error recursionError := by
  induction entries with
  | nil => rw [List.map_nil, heightEntries, if_pos (Nat.zero_le n)]; rfl
  | cons entry rest ih =>
    rw [List.forall_mem_cons] at h
    rw [List.map_cons, canonicalEntries, h.1, ih h.2, heightEntries]
    by_cases hitem : height entry.2 ≤ n
    · by_cases hrest :
          heightEntries (rest.map fun entry => (ProviderValue.str entry.1, entry.2)) ≤ n
      · rw [if_pos hitem, if_pos hrest, if_pos (Nat.max_le.2 ⟨hitem, hrest⟩)]
        rfl
      · rw [if_pos hitem, if_neg hrest, if_neg fun hmax => hrest (Nat.max_le.1 hmax).2]
        rfl
    · rw [if_neg hitem, if_neg fun hmax => hitem (Nat.max_le.1 hmax).1]
      rfl

/-- A value is read as its document, or it nests too deeply. -/
theorem canonicalPlain_eq {value : ProviderValue} (h : value.JsonData) (n : Nat) :
    canonicalPlain value n =
      if height value ≤ n then .ok value.document else .error recursionError := by
  induction h generalizing n with
  | none | bool | int | str =>
    cases n with
    | zero => rfl
    | succ n =>
      rw [height, if_pos (Nat.le_add_left 1 n)]
      · rfl
      all_goals intros; contradiction
  | sequence listed _ ih =>
    cases n with
    | zero =>
      rw [canonicalPlain, if_neg (Nat.not_le.2 (height_pos _))]
    | succ n =>
      have hitems := canonicalItems_eq fun item hitem => ih item hitem n
      rw [document_of_elements listed]
      rcases elements_eq listed with rfl | rfl <;>
        rw [canonicalPlain, hitems, height] <;>
        simp only [Nat.add_le_add_iff_right] <;>
        split <;> rfl
  | @mapping entries clean distinct _ ih =>
    cases n with
    | zero => rw [canonicalPlain, if_neg (Nat.not_le.2 (height_pos _))]
    | succ n =>
      have hentries := canonicalEntries_eq fun entry hentry => ih entry hentry n
      have hkeys : ((entries.map fun entry => (ProviderValue.str entry.1, entry.2)).all
          fun item => isStr item.1) = true := by
        simp [isStr]
      have hdistinct : ((entries.map fun entry =>
        (entry.1, entry.2.document)).map Prod.fst).Nodup := by
        rw [List.map_map]
        exact distinct
      rw [document_keyed, keyed, canonicalPlain, if_pos hkeys, hentries, height]
      simp only [Nat.add_le_add_iff_right]
      split
      · change Except.ok (JsonValue.object (dictEntries _)) = _
        rw [dictEntries_of_nodup hdistinct]
      · rfl

end Reading

section Documents

variable {value : ProviderValue}

theorem document_floats (h : value.JsonData) : value.document.Floats fun _ => False := by
  induction h with
  | none | bool | int | str => trivial
  | sequence listed _ ih =>
    rw [document_of_elements listed, JsonValue.Floats, JsonValue.floatsItems_iff]
    intro document hdocument
    obtain ⟨item, hitem, rfl⟩ := List.mem_map.1 hdocument
    exact ih item hitem
  | mapping _ _ _ ih =>
    rw [document_keyed, JsonValue.Floats, JsonValue.floatsEntries_iff]
    intro pair hpair
    obtain ⟨entry, hentry, rfl⟩ := List.mem_map.1 hpair
    exact ih entry hentry

theorem document_encodable (h : value.JsonData) : value.document.Encodable := by
  induction h with
  | none | bool | int => trivial
  | str clean => exact clean
  | sequence listed _ ih =>
    rw [document_of_elements listed, JsonValue.Encodable, JsonValue.encodableItems_iff]
    intro document hdocument
    obtain ⟨item, hitem, rfl⟩ := List.mem_map.1 hdocument
    exact ih item hitem
  | mapping clean _ _ ih =>
    rw [document_keyed, JsonValue.Encodable, JsonValue.encodableEntries_iff]
    intro pair hpair
    obtain ⟨entry, hentry, rfl⟩ := List.mem_map.1 hpair
    exact ⟨clean entry hentry, ih entry hentry⟩

end Documents

section Same

theorem keys_documents (entries : List (CodeText × ProviderValue)) :
    (entries.map fun entry => (entry.1, entry.2.document)).map Prod.fst = entries.map Prod.fst := by
  rw [List.map_map]
  rfl

variable {v w : ProviderValue}

theorem sorted_eq_of_same (h : SameJson v w) (hv : v.JsonData) (hw : w.JsonData) :
    v.document.sorted = w.document.sorted := by
  induction h with
  | none | bool | int | str => rfl
  | sequence listed listed' length _ ih =>
    rw [document_of_elements listed, document_of_elements listed', JsonValue.sorted,
      JsonValue.sorted, JsonValue.sortedItems_eq_map, JsonValue.sortedItems_eq_map]
    congr 1
    refine List.ext_getElem (by simpa using length) fun i hi hi' => ?_
    simp only [List.length_map] at hi hi'
    simp only [List.getElem_map]
    exact ih i _ _ (List.getElem?_eq_getElem hi) (List.getElem?_eq_getElem hi')
      (hv.listed listed _ (List.getElem_mem hi)) (hw.listed listed' _ (List.getElem_mem hi'))
  | mapping keys _ ih =>
    obtain ⟨hdistinct, hvalues⟩ := hv.paired
    obtain ⟨hdistinct', hvalues'⟩ := hw.paired
    rw [document_keyed, document_keyed, JsonValue.sorted_object_eq_iff
      (by rwa [keys_documents]) (by rwa [keys_documents]), keys_documents, keys_documents]
    refine ⟨keys, fun key a b ha hb => ?_⟩
    obtain ⟨⟨_, x⟩, hx, hax⟩ := List.mem_map.1 ha
    obtain ⟨⟨_, y⟩, hy, hby⟩ := List.mem_map.1 hb
    cases hax
    cases hby
    exact ih _ x y hx hy (hvalues _ hx) (hvalues' _ hy)

theorem same_of_sorted_eq (hv : v.JsonData) (hw : w.JsonData)
    (h : v.document.sorted = w.document.sorted) : SameJson v w := by
  induction hv generalizing w with
  | none =>
    cases hw with
    | none => exact .none
    | sequence listed => rw [document_of_elements listed] at h; cases h
    | bool | int | str | mapping => cases h
  | bool =>
    cases hw with
    | bool => cases h; exact .bool _
    | sequence listed => rw [document_of_elements listed] at h; cases h
    | none | int | str | mapping => cases h
  | int =>
    cases hw with
    | int => cases h; exact .int _
    | sequence listed => rw [document_of_elements listed] at h; cases h
    | none | bool | str | mapping => cases h
  | str =>
    cases hw with
    | str => cases h; exact .str _
    | sequence listed => rw [document_of_elements listed] at h; cases h
    | none | bool | int | mapping => cases h
  | @sequence v xs listed each ih =>
    rw [document_of_elements listed] at h
    cases hw with
    | @sequence _ ys listed' each' =>
      rw [document_of_elements listed', JsonValue.sorted, JsonValue.sorted,
        JsonValue.sortedItems_eq_map, JsonValue.sortedItems_eq_map, JsonValue.array.injEq] at h
      refine .sequence listed listed' (by simpa using congrArg List.length h) ?_
      intro i x y hx hy
      have hi := congrArg (·[i]?) h
      simp only [List.getElem?_map, hx, hy, Option.map_some, Option.some.injEq] at hi
      exact ih x (List.mem_of_getElem? hx) (each' y (List.mem_of_getElem? hy)) hi
    | none | bool | int | str | mapping => cases h
  | @mapping entries clean distinct each ih =>
    rw [document_keyed] at h
    cases hw with
    | @mapping others _ distinct' each' =>
      rw [document_keyed, JsonValue.sorted_object_eq_iff (by rwa [keys_documents])
        (by rwa [keys_documents]), keys_documents, keys_documents] at h
      refine .mapping h.1 fun key x y hx hy => ?_
      exact ih _ hx (each' _ hy)
        (h.2 key _ _ (List.mem_map_of_mem hx) (List.mem_map_of_mem hy))
    | sequence listed => rw [document_of_elements listed] at h; cases h
    | none | bool | int | str => cases h

end Same

end CanonicalPayload

end AiRetrieval
