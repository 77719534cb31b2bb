import AiRetrieval.Sanity.FrozenValues
import AiRetrieval.Spec.TaskParser

/-! What the parser reads of a response, where it returns, and the records it finds. -/

namespace AiRetrieval.StructuredOutputParser

section Plain

mutual

/-- The decoded value of a structured response, however deep it nests. -/
def plain : ProviderValue → Option Document
  | .none => some .null
  | .bool value => some (.bool value)
  | .int value => some (.int value)
  | .str value => some (.text value)
  | .float value => if value.isFinite then some (.float value) else none
  | .mapping items => (plainEntries items []).map .object
  | .list items => (plainItems items).map .array
  | .tuple items => (plainItems items).map .array
  | .sequence _ items => (plainItems items).map .array
  | _ => none

def plainItems : List ProviderValue → Option (List Document)
  | [] => some []
  | item :: rest => do return (← plain item) :: (← plainItems rest)

def plainEntries : List (ProviderValue × ProviderValue) → List CodeText →
    Option (List (CodeText × Document))
  | [], _ => some []
  | (key, item) :: rest, seen =>
    match key with
    | .str name =>
      if name ∈ seen then none
      else do return (name, ← plain item) :: (← plainEntries rest (name :: seen))
    | _ => none

end

mutual

/-- How many calls nest to read a value. -/
def height : ProviderValue → Nat
  | .mapping items => heightEntries items + 1
  | .list items => heightItems items + 1
  | .tuple items => heightItems items + 1
  | .sequence _ items => heightItems items + 1
  | _ => 1

def heightItems : List ProviderValue → Nat
  | [] => 0
  | item :: rest => max (height item) (heightItems rest)

def heightEntries : List (ProviderValue × ProviderValue) → Nat
  | [] => 0
  | (_, item) :: rest => max (height item) (heightEntries rest)

end

mutual

/-- Reading a value in at most `n` nested calls gives its plain value. -/
theorem normalize_ok_iff : ∀ {v : ProviderValue} {n : Nat} {d : Document},
    normalize v n = .ok d ↔ plain v = some d ∧ height v ≤ n
  | v, 0, d => by
    rw [normalize]
    refine ⟨fun h => (by cases h), fun h => ?_⟩
    have hpositive : 0 < height v := by cases v <;> simp [height]
    omega
  | .none, n + 1, d | .bool _, n + 1, d | .int _, n + 1, d | .str _, n + 1, d => by
    simp [normalize, plain, height]
  | .float value, n + 1, d => by
    simp only [normalize, plain, height]
    split <;> simp
  | .bytes _, n + 1, d | .bytearray _, n + 1, d | .object _, n + 1, d => by
    simp [normalize, plain]
  | .mapping items, n + 1, d => by
    rw [normalize, plain, height, Nat.add_le_add_iff_right, Option.map_eq_some_iff]
    constructor
    · intro h
      cases hentries : normalizeEntries items n [] with
      | error e =>
        rw [hentries] at h
        cases h
      | ok entries =>
        rw [hentries] at h
        cases h
        obtain ⟨hplain, hheight⟩ := normalizeEntries_ok_iff.1 hentries
        exact ⟨⟨entries, hplain, rfl⟩, hheight⟩
    · rintro ⟨⟨entries, hplain, rfl⟩, hheight⟩
      rw [normalizeEntries_ok_iff.2 ⟨hplain, hheight⟩]
      rfl
  | .list items, n + 1, d | .tuple items, n + 1, d | .sequence _ items, n + 1, d => by
    rw [normalize, plain, height, Nat.add_le_add_iff_right, Option.map_eq_some_iff]
    constructor
    · intro h
      cases hitems : normalizeItems items n with
      | error e =>
        rw [hitems] at h
        cases h
      | ok values =>
        rw [hitems] at h
        cases h
        obtain ⟨hplain, hheight⟩ := normalizeItems_ok_iff.1 hitems
        exact ⟨⟨values, hplain, rfl⟩, hheight⟩
    · rintro ⟨⟨values, hplain, rfl⟩, hheight⟩
      rw [normalizeItems_ok_iff.2 ⟨hplain, hheight⟩]
      rfl

theorem normalizeItems_ok_iff : ∀ {items : List ProviderValue} {n : Nat} {ds : List Document},
    normalizeItems items n = .ok ds ↔ plainItems items = some ds ∧ heightItems items ≤ n
  | [], n, ds => by simp [normalizeItems, plainItems, heightItems]
  | item :: rest, n, ds => by
    rw [normalizeItems, plainItems, heightItems, Nat.max_le]
    constructor
    · intro h
      obtain ⟨d, hitem, h⟩ := except_bind_eq_ok.1 h
      obtain ⟨others, hrest, h⟩ := except_bind_eq_ok.1 h
      cases h
      obtain ⟨hplain, hheight⟩ := normalize_ok_iff.1 hitem
      obtain ⟨hothers, hheights⟩ := normalizeItems_ok_iff.1 hrest
      rw [hplain, hothers]
      exact ⟨rfl, hheight, hheights⟩
    · rintro ⟨h, hheight, hheights⟩
      obtain ⟨d, hplain, h⟩ := Option.bind_eq_some_iff.1 h
      obtain ⟨others, hothers, h⟩ := Option.bind_eq_some_iff.1 h
      cases h
      rw [normalize_ok_iff.2 ⟨hplain, hheight⟩, normalizeItems_ok_iff.2 ⟨hothers, hheights⟩]
      rfl

theorem normalizeEntries_ok_iff : ∀ {items : List (ProviderValue × ProviderValue)} {n : Nat}
    {seen : List CodeText} {entries : List (CodeText × Document)},
    normalizeEntries items n seen = .ok entries ↔
      plainEntries items seen = some entries ∧ heightEntries items ≤ n
  | [], n, seen, entries => by simp [normalizeEntries, plainEntries, heightEntries]
  | (key, item) :: rest, n, seen, entries => by
    cases key with
    | str name =>
      rw [normalizeEntries, plainEntries, heightEntries, Nat.max_le]
      by_cases hseen : name ∈ seen
      · rw [if_pos hseen, if_pos hseen]
        simp
      · rw [if_neg hseen, if_neg hseen]
        constructor
        · intro h
          obtain ⟨d, hitem, h⟩ := except_bind_eq_ok.1 h
          obtain ⟨others, hrest, h⟩ := except_bind_eq_ok.1 h
          cases h
          obtain ⟨hplain, hheight⟩ := normalize_ok_iff.1 hitem
          obtain ⟨hothers, hheights⟩ := normalizeEntries_ok_iff.1 hrest
          rw [hplain, hothers]
          exact ⟨rfl, hheight, hheights⟩
        · rintro ⟨h, hheight, hheights⟩
          obtain ⟨d, hplain, h⟩ := Option.bind_eq_some_iff.1 h
          obtain ⟨others, hothers, h⟩ := Option.bind_eq_some_iff.1 h
          cases h
          rw [normalize_ok_iff.2 ⟨hplain, hheight⟩, normalizeEntries_ok_iff.2 ⟨hothers, hheights⟩]
          rfl
    | _ => simp [normalizeEntries, plainEntries]

end

mutual

theorem plain_distinct : ∀ {v : ProviderValue} {d : Document}, plain v = some d → d.Distinct
  | .none, d, h | .bool _, d, h | .int _, d, h | .str _, d, h => by
    rw [plain] at h
    cases h
    trivial
  | .float value, d, h => by
    rw [plain] at h
    split at h
    · cases h
      trivial
    · cases h
  | .bytes _, d, h | .bytearray _, d, h | .object _, d, h => by
    simp [plain] at h
  | .mapping items, d, h => by
    rw [plain, Option.map_eq_some_iff] at h
    obtain ⟨entries, hentries, rfl⟩ := h
    obtain ⟨hnodup, -, hdistinct⟩ := plainEntries_distinct hentries
    exact ⟨hnodup, hdistinct⟩
  | .list items, d, h | .tuple items, d, h | .sequence _ items, d, h => by
    rw [plain, Option.map_eq_some_iff] at h
    obtain ⟨values, hvalues, rfl⟩ := h
    exact plainItems_distinct hvalues

theorem plainItems_distinct : ∀ {items : List ProviderValue} {ds : List Document},
    plainItems items = some ds → JsonValue.DistinctItems ds
  | [], ds, h => by
    rw [plainItems] at h
    cases h
    trivial
  | item :: rest, ds, h => by
    rw [plainItems] at h
    obtain ⟨d, hplain, h⟩ := Option.bind_eq_some_iff.1 h
    obtain ⟨others, hothers, h⟩ := Option.bind_eq_some_iff.1 h
    cases h
    exact ⟨plain_distinct hplain, plainItems_distinct hothers⟩

theorem plainEntries_distinct : ∀ {items : List (ProviderValue × ProviderValue)}
    {seen : List CodeText} {entries : List (CodeText × Document)},
    plainEntries items seen = some entries → (entries.map Prod.fst).Nodup ∧
      (∀ key ∈ entries.map Prod.fst, key ∉ seen) ∧ JsonValue.DistinctEntries entries
  | [], seen, entries, h => by
    rw [plainEntries] at h
    cases h
    exact ⟨List.nodup_nil, fun _ hkey => (by cases hkey), trivial⟩
  | (key, item) :: rest, seen, entries, h => by
    cases key with
    | str name =>
      rw [plainEntries] at h
      by_cases hseen : name ∈ seen
      · rw [if_pos hseen] at h
        cases h
      · rw [if_neg hseen] at h
        obtain ⟨d, hplain, h⟩ := Option.bind_eq_some_iff.1 h
        obtain ⟨others, hothers, h⟩ := Option.bind_eq_some_iff.1 h
        cases h
        obtain ⟨hnodup, hnew, hdistinct⟩ := plainEntries_distinct hothers
        refine ⟨?_, ?_, plain_distinct hplain, hdistinct⟩
        · rw [List.map_cons, List.nodup_cons]
          exact ⟨fun hmem => hnew name hmem (List.mem_cons_self ..), hnodup⟩
        · rw [List.map_cons, List.forall_mem_cons]
          exact ⟨hseen, fun key hkey hmem => hnew key hkey (List.mem_cons_of_mem _ hmem)⟩
    | _ => simp [plainEntries] at h

end

end Plain

section Depth

mutual

/-- Reading a value nests more than `n` calls before anything in it is refused. -/
def TooDeep : ProviderValue → Nat → Prop
  | _, 0 => True
  | .mapping items, n + 1 => TooDeepEntries items n []
  | .list items, n + 1 => TooDeepItems items n
  | .tuple items, n + 1 => TooDeepItems items n
  | .sequence _ items, n + 1 => TooDeepItems items n
  | _, _ + 1 => False

def TooDeepItems : List ProviderValue → Nat → Prop
  | [], _ => False
  | item :: rest, n =>
    TooDeep item n ∨ ((plain item).isSome = true ∧ height item ≤ n) ∧ TooDeepItems rest n

def TooDeepEntries : List (ProviderValue × ProviderValue) → Nat → List CodeText → Prop
  | [], _, _ => False
  | (key, item) :: rest, n, seen =>
    match key with
    | .str name => name ∉ seen ∧ (TooDeep item n ∨
        ((plain item).isSome = true ∧ height item ≤ n) ∧ TooDeepEntries rest n (name :: seen))
    | _ => False

end

theorem normalize_returns_iff {v : ProviderValue} {n : Nat} :
    (∃ d, normalize v n = .ok d) ↔ (plain v).isSome = true ∧ height v ≤ n := by
  rw [Option.isSome_iff_exists]
  constructor
  · rintro ⟨d, h⟩
    obtain ⟨hplain, hheight⟩ := normalize_ok_iff.1 h
    exact ⟨⟨d, hplain⟩, hheight⟩
  · rintro ⟨⟨d, hplain⟩, hheight⟩
    exact ⟨d, normalize_ok_iff.2 ⟨hplain, hheight⟩⟩

mutual

theorem normalize_recursion_iff : ∀ {v : ProviderValue} {n : Nat},
    normalize v n = .error .recursion ↔ TooDeep v n
  | v, 0 => by simp [normalize, TooDeep]
  | .none, n + 1 | .bool _, n + 1 | .int _, n + 1 | .str _, n + 1
  | .bytes _, n + 1 | .bytearray _, n + 1 | .object _, n + 1 => by simp [normalize, TooDeep]
  | .float value, n + 1 => by
    simp only [normalize, TooDeep]
    split <;> simp
  | .mapping items, n + 1 => by
    rw [normalize, TooDeep, ← normalizeEntries_recursion_iff]
    cases normalizeEntries items n [] with
    | error e => exact ⟨fun h => (by cases h; rfl), fun h => (by cases h; rfl)⟩
    | ok entries => exact ⟨fun h => (by cases h), fun h => (by cases h)⟩
  | .list items, n + 1 | .tuple items, n + 1 | .sequence _ items, n + 1 => by
    rw [normalize, TooDeep, ← normalizeItems_recursion_iff]
    cases normalizeItems items n with
    | error e => exact ⟨fun h => (by cases h; rfl), fun h => (by cases h; rfl)⟩
    | ok values => exact ⟨fun h => (by cases h), fun h => (by cases h)⟩

theorem normalizeItems_recursion_iff : ∀ {items : List ProviderValue} {n : Nat},
    normalizeItems items n = .error .recursion ↔ TooDeepItems items n
  | [], n => by simp [normalizeItems, TooDeepItems]
  | item :: rest, n => by
    rw [normalizeItems, TooDeepItems, ← normalize_recursion_iff, ← normalize_returns_iff,
      ← normalizeItems_recursion_iff]
    cases hitem : normalize item n with
    | error e =>
      refine ⟨fun h => Or.inl (by cases h; rfl), fun h => ?_⟩
      rcases h with h | ⟨⟨d, hd⟩, -⟩
      · cases h
        rfl
      · cases hd
    | ok d =>
      cases hrest : normalizeItems rest n with
      | error e =>
        refine ⟨fun h => Or.inr ⟨⟨d, rfl⟩, by cases h; rfl⟩, fun h => ?_⟩
        rcases h with h | ⟨-, h⟩
        · cases h
        · cases h
          rfl
      | ok others =>
        refine ⟨fun h => (by cases h), fun h => ?_⟩
        rcases h with h | ⟨-, h⟩
        · cases h
        · cases h

theorem normalizeEntries_recursion_iff : ∀ {items : List (ProviderValue × ProviderValue)}
    {n : Nat} {seen : List CodeText},
    normalizeEntries items n seen = .error .recursion ↔ TooDeepEntries items n seen
  | [], n, seen => by simp [normalizeEntries, TooDeepEntries]
  | (key, item) :: rest, n, seen => by
    cases key with
    | str name =>
      rw [normalizeEntries, TooDeepEntries, ← normalize_recursion_iff, ← normalize_returns_iff,
        ← normalizeEntries_recursion_iff]
      by_cases hseen : name ∈ seen
      · rw [if_pos hseen]
        exact ⟨fun h => (by cases h), fun h => absurd hseen h.1⟩
      · rw [if_neg hseen]
        cases hitem : normalize item n with
        | error e =>
          refine ⟨fun h => ⟨hseen, Or.inl (by cases h; rfl)⟩, fun h => ?_⟩
          rcases h.2 with h | ⟨⟨d, hd⟩, -⟩
          · cases h
            rfl
          · cases hd
        | ok d =>
          cases hrest : normalizeEntries rest n (name :: seen) with
          | error e =>
            refine ⟨fun h => ⟨hseen, Or.inr ⟨⟨d, rfl⟩, by cases h; rfl⟩⟩, fun h => ?_⟩
            rcases h.2 with h | ⟨-, h⟩
            · cases h
            · cases h
              rfl
          | ok others =>
            refine ⟨fun h => (by cases h), fun h => ?_⟩
            rcases h.2 with h | ⟨-, h⟩
            · cases h
            · cases h
    | _ => simp [normalizeEntries, TooDeepEntries]

end

end Depth

section Failures

variable {α : Type}

/-- A parser result that is a returned failure. -/
def Refused (result : Parsed α) : Prop := ∃ failed, result = .ok (.error failed)

theorem refuse_refused {code : TaskFailureCode} {ruleId : String}
    {details : List (String × PyValue)}
    (hdetails : ∀ item ∈ details, ∃ frozen, item.2.freeze = .ok frozen)
    (hrule : blank ruleId = false) : Refused (refuse code ruleId details : Parsed α) := by
  obtain ⟨items, hitems⟩ := (PyValue.frozenDict_returns_iff details).2 hdetails
  obtain ⟨frozen, hfrozen, hasserted⟩ := except_bind_eq_ok.1 hitems
  have hpassed : TaskFailure.postInit ⟨.parsing, code, [ruleId], items⟩ = .ok () := by
    simp only [TaskFailure.postInit, except_seq_eq_ok, require_eq_ok, List.forall_mem_singleton]
    exact ⟨hrule, List.nodup_singleton ruleId⟩
  have hfailure : failure code ruleId details = .ok ⟨_, hpassed⟩ := by
    unfold failure
    rw [hfrozen]
    change (PyValue.asserted frozen >>= fun items =>
      Checked.make TaskFailure.postInit ⟨.parsing, code, [ruleId], items⟩) = _
    rw [hasserted]
    exact Checked.make_of_passed hpassed
  refine ⟨⟨_, hpassed⟩, ?_⟩
  unfold refuse
  rw [hfailure]
  rfl

theorem freeze_str (value : String) : ∃ frozen, (PyValue.str value).freeze = .ok frozen :=
  ⟨.str value, by rw [PyValue.freeze]⟩

theorem freeze_int (value : Int) : ∃ frozen, (PyValue.int value).freeze = .ok frozen :=
  ⟨.int value, by rw [PyValue.freeze]⟩

theorem unsupportedRepresentation_refused (representation : String) :
    Refused (unsupportedRepresentation representation : Parsed α) :=
  refuse_refused (by simp [freeze_str]) (by decide +kernel)

theorem malformed_refused (representation reason : String) :
    Refused (malformed representation reason : Parsed α) :=
  refuse_refused (by simp [freeze_str]) (by decide +kernel)

theorem tooLarge_refused (representation : String) (size : Nat) (limit : Int) :
    Refused (tooLarge representation size limit : Parsed α) :=
  refuse_refused (by simp [freeze_str, freeze_int]) (by decide +kernel)

theorem schemaFailure_refused (representation reason : String) (index : Option Nat) :
    Refused (schemaFailure representation reason index : Parsed α) := by
  refine refuse_refused ?_ (by decide +kernel)
  intro item hitem
  rw [List.mem_append] at hitem
  rcases hitem with hitem | hitem
  · revert item
    simp [freeze_str]
  · rw [Option.mem_toList, Option.map_eq_some_iff] at hitem
    obtain ⟨n, -, rfl⟩ := hitem
    exact freeze_int n

theorem hookFailure_refused (representation : String) (error : HookError) :
    Refused (hookFailure representation error : Parsed α) := by
  cases error with
  | duplicateKey => exact malformed_refused _ _
  | nonFiniteNumber => exact malformed_refused _ _

theorem Refused.ne_ok {result : Parsed α} (h : Refused result) (value : α) :
    result ≠ .ok (.ok value) := by
  obtain ⟨failed, rfl⟩ := h
  intro he
  cases he

theorem Refused.returns {result : Parsed α} (h : Refused result) : ∃ r, result = .ok r := by
  obtain ⟨failed, rfl⟩ := h
  exact ⟨_, rfl⟩

end Failures

section Texts

variable {runtime : PythonRuntime} {text : CodeText} {d : Document}

theorem objectFromPairs_ok_iff {result pairs decoded : List (CodeText × Document)} :
    objectFromPairs result pairs = .ok decoded ↔ (pairs.map Prod.fst).Nodup ∧
      (∀ pair ∈ pairs, pair.1 ∉ result.map Prod.fst) ∧ decoded = result ++ pairs := by
  induction pairs generalizing result with
  | nil =>
    rw [objectFromPairs, List.append_nil]
    constructor
    · intro h
      cases h
      exact ⟨List.nodup_nil, fun _ h => (by cases h), rfl⟩
    · rintro ⟨-, -, rfl⟩
      rfl
  | cons pair rest ih =>
    obtain ⟨key, value⟩ := pair
    rw [objectFromPairs, List.map_cons, List.nodup_cons, List.forall_mem_cons]
    by_cases hkey : key ∈ result.map Prod.fst
    · rw [if_pos hkey]
      exact ⟨fun h => (by cases h), fun h => absurd hkey h.2.1.1⟩
    · rw [if_neg hkey, ih, List.append_assoc, List.singleton_append]
      constructor
      · rintro ⟨hnodup, hnew, rfl⟩
        refine ⟨⟨fun hmem => ?_, hnodup⟩, ⟨hkey, fun pair hpair hmem => ?_⟩, rfl⟩
        · obtain ⟨pair, hpair, rfl⟩ := List.mem_map.1 hmem
          exact hnew pair hpair (by simp)
        · exact hnew pair hpair (by
            rw [List.map_append]
            exact List.mem_append_left _ hmem)
      · rintro ⟨⟨hfresh, hnodup⟩, ⟨-, hnew⟩, rfl⟩
        refine ⟨hnodup, fun pair hpair hmem => ?_, rfl⟩
        rw [List.map_append, List.mem_append, List.map_singleton, List.mem_singleton] at hmem
        rcases hmem with hmem | hmem
        · exact hnew pair hpair hmem
        · exact hfresh (hmem ▸ List.mem_map_of_mem hpair)

theorem objectFromPairs_of_nodup (entries : List (CodeText × Document))
    (h : (entries.map Prod.fst).Nodup) : objectFromPairs [] entries = .ok entries :=
  objectFromPairs_ok_iff.2 ⟨h, fun _ _ hmem => (by cases hmem), rfl⟩

theorem nodup_of_objectFromPairs (entries decoded : List (CodeText × Document))
    (h : objectFromPairs [] entries = .ok decoded) :
    (entries.map Prod.fst).Nodup ∧ decoded = entries := by
  obtain ⟨hnodup, -, rfl⟩ := objectFromPairs_ok_iff.1 h
  exact ⟨hnodup, rfl⟩

/-- A text is the JSON of a document with distinct keys and no constants. -/
def Reads (runtime : PythonRuntime) (text : CodeText) (d : Document) : Prop :=
  ∃ t : JsonText PyFloat, runtime.scan text = .document t ∧ t.Strict ∧ d = t.value

/-- Reading a text stops at an integer of too many digits before a hook refuses anything. -/
def LongInteger (runtime : PythonRuntime) (text : CodeText) : Prop :=
  ∃ parsed digits, runtime.scan text = .stopped parsed (.integer digits) ∧
    JsonText.StrictItems parsed

theorem decodeJson_ok_iff (representation : String) :
    decodeJson runtime text representation = .ok (.ok d) ↔ Reads runtime text d := by
  unfold decodeJson Reads
  cases hscan : runtime.scan text with
  | document t =>
    rw [JsonScan.load]
    cases hload : t.load (objectFromPairs []) rejectConstant with
    | ok value =>
      obtain ⟨hstrict, rfl⟩ := JsonText.strict_of_load nodup_of_objectFromPairs
        (fun _ _ h => by cases h) hload
      constructor
      · intro h
        cases h
        exact ⟨t, rfl, hstrict, rfl⟩
      · rintro ⟨t', ht, -, rfl⟩
        cases ht
        rfl
    | error e =>
      refine ⟨fun h => absurd h ((hookFailure_refused _ e).ne_ok d), ?_⟩
      rintro ⟨t', ht, hstrict, -⟩
      cases ht
      rw [JsonText.load_of_strict objectFromPairs_of_nodup hstrict] at hload
      cases hload
  | stopped parsed stop =>
    refine ⟨fun h => ?_, fun ⟨t, ht, _⟩ => (by cases ht)⟩
    exfalso
    rw [JsonScan.load] at h
    cases hload : JsonText.loadItems (objectFromPairs []) rejectConstant parsed with
    | error e =>
      rw [hload] at h
      exact (hookFailure_refused _ e).ne_ok d h
    | ok values =>
      rw [hload] at h
      cases stop with
      | malformed => exact (malformed_refused _ _).ne_ok d h
      | nesting => exact (malformed_refused _ _).ne_ok d h
      | integer digits => cases h

theorem decodeJson_returns_iff (representation : String) :
    (∃ r, decodeJson runtime text representation = .ok r) ↔ ¬LongInteger runtime text := by
  unfold decodeJson LongInteger
  cases hscan : runtime.scan text with
  | document t =>
    refine ⟨fun _ ⟨_, _, h, _⟩ => (by cases h), fun _ => ?_⟩
    rw [JsonScan.load]
    cases t.load (objectFromPairs []) rejectConstant with
    | ok value => exact ⟨_, rfl⟩
    | error e => exact (hookFailure_refused _ e).returns
  | stopped parsed stop =>
    rw [JsonScan.load]
    cases hload : JsonText.loadItems (objectFromPairs []) rejectConstant parsed with
    | error e =>
      refine ⟨fun _ ⟨parsed', digits, h, hstrict⟩ => ?_,
        fun _ => (hookFailure_refused _ e).returns⟩
      cases h
      rw [JsonText.loadItems_of_strict objectFromPairs_of_nodup hstrict] at hload
      cases hload
    | ok values =>
      have hstrict := (JsonText.strictItems_of_load nodup_of_objectFromPairs
        (fun _ _ h => by cases h) hload).1
      cases stop with
      | malformed =>
        exact ⟨fun _ ⟨_, _, h, _⟩ => (by cases h), fun _ => (malformed_refused _ _).returns⟩
      | nesting =>
        exact ⟨fun _ ⟨_, _, h, _⟩ => (by cases h), fun _ => (malformed_refused _ _).returns⟩
      | integer digits =>
        refine ⟨fun ⟨r, h⟩ => (by cases h), fun h => ?_⟩
        exact absurd ⟨parsed, digits, rfl, hstrict⟩ h

end Texts

section Decode

variable {runtime : PythonRuntime} {definition : TaskDefinition} {response : ProviderValue}
  {d : Document}

/-- A mapping or a sequence that is neither text nor binary. -/
def Structured : ProviderValue → Prop
  | .mapping _ => True
  | .list _ => True
  | .tuple _ => True
  | .sequence _ _ => True
  | _ => False

def Content (limit : Int) (response : ProviderValue) (text : CodeText) : Prop :=
  match response with
  | .str value => value = text ∧ ∃ s, text.string? = some s ∧ (encodeUtf8 s).length ≤ limit
  | .bytes data => data.length ≤ limit ∧ decodeUtf8? data = some text
  | _ => False

def Holds (runtime : PythonRuntime) (limit : Int) (response : ProviderValue) (d : Document) :
    Prop :=
  (∃ text, Content limit response text ∧ Reads runtime text d) ∨
    Structured response ∧ plain response = some d

/-- Decoding a response raises nothing: a text can be encoded, no integer is too long to be
read, and no value nests too deeply. -/
structure Decodable (runtime : PythonRuntime) (limit : Int) (response : ProviderValue) : Prop where
  encodable : ∀ text, response = .str text → (text.string?).isSome = true
  integers : ∀ text, Content limit response text → ¬LongInteger runtime text
  nesting : Structured response → ¬TooDeep response runtime.nesting

theorem decodeStructured_ok_iff (representation : String) :
    decodeStructured runtime response representation = .ok (.ok d) ↔
      plain response = some d ∧ height response ≤ runtime.nesting := by
  rw [← normalize_ok_iff]
  unfold decodeStructured
  cases normalize response runtime.nesting with
  | ok value =>
    constructor
    · intro h
      cases h
      rfl
    · intro h
      cases h
      rfl
  | error e =>
    refine ⟨fun h => ?_, fun h => (by cases h)⟩
    exfalso
    cases e with
    | hook e => exact (hookFailure_refused _ e).ne_ok d h
    | unsupportedValue => exact (unsupportedRepresentation_refused _).ne_ok d h
    | recursion => cases h

theorem decodeStructured_returns_iff (representation : String) :
    (∃ r, decodeStructured runtime response representation = .ok r) ↔
      ¬TooDeep response runtime.nesting := by
  rw [← normalize_recursion_iff]
  unfold decodeStructured
  cases normalize response runtime.nesting with
  | ok value => exact ⟨fun _ h => (by cases h), fun _ => ⟨_, rfl⟩⟩
  | error e =>
    cases e with
    | hook e => exact ⟨fun _ h => (by cases h), fun _ => (hookFailure_refused _ e).returns⟩
    | unsupportedValue =>
      exact ⟨fun _ h => (by cases h), fun _ => (unsupportedRepresentation_refused _).returns⟩
    | recursion => exact ⟨fun ⟨_, h⟩ => (by cases h), fun h => absurd rfl h⟩

theorem encodeText_ok {text : CodeText} {s : String} (h : text.string? = some s) :
    encodeText text = .ok (encodeUtf8 s) := by
  unfold encodeText
  rw [h]

theorem decode_str {text : CodeText} {s : String} (h : text.string? = some s)
    (representation : String) : decode runtime (.str text) definition representation =
      if definition.responseSizeLimit < (encodeUtf8 s).length then
        tooLarge representation (encodeUtf8 s).length definition.responseSizeLimit
      else decodeJson runtime text representation := by
  unfold decode
  dsimp only
  rw [encodeText_ok h]
  rfl

theorem decode_ok_iff (representation : String) :
    decode runtime response definition representation = .ok (.ok d) ↔
      Holds runtime definition.responseSizeLimit response d ∧
        (Structured response → height response ≤ runtime.nesting) := by
  have hscalar (hdecode : decode runtime response definition representation =
      unsupportedRepresentation representation) (hcontent : ∀ text,
        ¬Content definition.responseSizeLimit response text) (hstructured : ¬Structured response) :
      decode runtime response definition representation = .ok (.ok d) ↔
        Holds runtime definition.responseSizeLimit response d ∧
          (Structured response → height response ≤ runtime.nesting) := by
    rw [hdecode]
    refine ⟨fun h => absurd h ((unsupportedRepresentation_refused _).ne_ok d), fun h => ?_⟩
    rcases h.1 with ⟨text, hmem, -⟩ | ⟨h, -⟩
    · exact absurd hmem (hcontent text)
    · exact absurd h hstructured
  have hnested (hdecode : decode runtime response definition representation =
      decodeStructured runtime response representation) (hcontent : ∀ text,
        ¬Content definition.responseSizeLimit response text) (hstructured : Structured response) :
      decode runtime response definition representation = .ok (.ok d) ↔
        Holds runtime definition.responseSizeLimit response d ∧
          (Structured response → height response ≤ runtime.nesting) := by
    rw [hdecode, decodeStructured_ok_iff]
    constructor
    · rintro ⟨hplain, hheight⟩
      exact ⟨Or.inr ⟨hstructured, hplain⟩, fun _ => hheight⟩
    · rintro ⟨⟨text, hmem, -⟩ | ⟨-, hplain⟩, hheight⟩
      · exact absurd hmem (hcontent text)
      · exact ⟨hplain, hheight hstructured⟩
  cases response with
  | bytes data =>
    unfold decode
    dsimp only
    by_cases hsize : definition.responseSizeLimit < data.length
    · rw [if_pos hsize]
      refine ⟨fun h => absurd h ((tooLarge_refused _ _ _).ne_ok d), ?_⟩
      rintro ⟨⟨text, hcontent, -⟩ | ⟨h, -⟩, -⟩
      · exact absurd hcontent.1 (by omega)
      · exact h.elim
    · rw [if_neg hsize]
      cases hdecode : decodeUtf8? data with
      | none =>
        refine ⟨fun h => absurd h ((malformed_refused _ _).ne_ok d), ?_⟩
        rintro ⟨⟨text, hcontent, -⟩ | ⟨h, -⟩, -⟩
        · rw [hcontent.2] at hdecode
          cases hdecode
        · exact h.elim
      | some text =>
        rw [decodeJson_ok_iff]
        constructor
        · intro h
          exact ⟨Or.inl ⟨text, ⟨by omega, hdecode⟩, h⟩, fun h => h.elim⟩
        · rintro ⟨⟨text', hcontent, h⟩ | ⟨h, -⟩, -⟩
          · rw [hcontent.2] at hdecode
            cases hdecode
            exact h
          · exact h.elim
  | str text =>
    unfold decode
    dsimp only
    cases hstring : text.string? with
    | none =>
      have hraise : ∃ e, encodeText text = .error e := by
        unfold encodeText
        rw [hstring]
        exact ⟨_, rfl⟩
      obtain ⟨e, he⟩ := hraise
      rw [he]
      refine ⟨fun h => (by cases h), ?_⟩
      rintro ⟨⟨text', hcontent, -⟩ | ⟨h, -⟩, -⟩
      · obtain ⟨rfl, s, hs, -⟩ := hcontent
        rw [hs] at hstring
        cases hstring
      · exact h.elim
    | some s =>
      change decode runtime (.str text) definition representation = _ ↔ _
      rw [decode_str hstring]
      by_cases hsize : definition.responseSizeLimit < (encodeUtf8 s).length
      · rw [if_pos hsize]
        refine ⟨fun h => absurd h ((tooLarge_refused _ _ _).ne_ok d), ?_⟩
        rintro ⟨⟨text', hcontent, -⟩ | ⟨h, -⟩, -⟩
        · obtain ⟨rfl, s', hs, hle⟩ := hcontent
          rw [hs] at hstring
          cases hstring
          omega
        · exact h.elim
      · rw [if_neg hsize, decodeJson_ok_iff]
        constructor
        · intro h
          exact ⟨Or.inl ⟨text, ⟨rfl, s, hstring, by omega⟩, h⟩, fun h => h.elim⟩
        · rintro ⟨⟨text', hcontent, h⟩ | ⟨h, -⟩, -⟩
          · obtain ⟨rfl, -⟩ := hcontent
            exact h
          · exact h.elim
  | mapping items => exact hnested rfl (fun _ h => h) trivial
  | list items => exact hnested rfl (fun _ h => h) trivial
  | tuple items => exact hnested rfl (fun _ h => h) trivial
  | sequence name items => exact hnested rfl (fun _ h => h) trivial
  | none => exact hscalar rfl (fun _ h => h) id
  | bool value => exact hscalar rfl (fun _ h => h) id
  | int value => exact hscalar rfl (fun _ h => h) id
  | float value => exact hscalar rfl (fun _ h => h) id
  | bytearray data => exact hscalar rfl (fun _ h => h) id
  | object name => exact hscalar rfl (fun _ h => h) id

theorem decodable_of_structured (h : Structured response) (hcontent : ∀ text,
    ¬Content definition.responseSizeLimit response text) :
    Decodable runtime definition.responseSizeLimit response ↔
      ¬TooDeep response runtime.nesting := by
  constructor
  · intro hdecodable
    exact hdecodable.nesting h
  · intro hdeep
    refine ⟨?_, fun text hmem => absurd hmem (hcontent text), fun _ => hdeep⟩
    rintro text rfl
    exact h.elim

theorem decode_returns_iff (representation : String) :
    (∃ r, decode runtime response definition representation = .ok r) ↔
      Decodable runtime definition.responseSizeLimit response := by
  have hnested (hdecode : decode runtime response definition representation =
      decodeStructured runtime response representation) (hcontent : ∀ text,
        ¬Content definition.responseSizeLimit response text) (hstructured : Structured response) :
      (∃ r, decode runtime response definition representation = .ok r) ↔
        Decodable runtime definition.responseSizeLimit response := by
    rw [hdecode, decodable_of_structured hstructured hcontent]
    exact decodeStructured_returns_iff _
  cases response with
  | bytes data =>
    unfold decode
    dsimp only
    have hdecodable (h : ∀ text, Content definition.responseSizeLimit (.bytes data) text →
        ¬LongInteger runtime text) :
        Decodable runtime definition.responseSizeLimit (.bytes data) :=
      ⟨fun _ h => (by cases h), h, fun h => h.elim⟩
    by_cases hsize : definition.responseSizeLimit < data.length
    · rw [if_pos hsize]
      exact ⟨fun _ => hdecodable fun text hcontent => absurd hcontent.1 (by omega),
        fun _ => (tooLarge_refused _ _ _).returns⟩
    · rw [if_neg hsize]
      cases hdecode : decodeUtf8? data with
      | none =>
        refine ⟨fun _ => hdecodable fun text hcontent => ?_,
          fun _ => (malformed_refused _ _).returns⟩
        rw [hcontent.2] at hdecode
        cases hdecode
      | some text =>
        rw [decodeJson_returns_iff]
        refine ⟨fun h => hdecodable fun text' hcontent => ?_,
          fun h => h.integers text ⟨by omega, hdecode⟩⟩
        rw [hcontent.2] at hdecode
        cases hdecode
        exact h
  | str text =>
    unfold decode
    dsimp only
    cases hstring : text.string? with
    | none =>
      refine ⟨fun ⟨r, hr⟩ => ?_, fun h => ?_⟩
      · unfold encodeText at hr
        rw [hstring] at hr
        cases hr
      · have hsome := h.encodable text rfl
        rw [hstring] at hsome
        cases hsome
    | some s =>
      have hdecodable (h : ∀ text', Content definition.responseSizeLimit (.str text) text' →
          ¬LongInteger runtime text') :
          Decodable runtime definition.responseSizeLimit (.str text) := by
        refine ⟨fun text' he => ?_, h, fun h => h.elim⟩
        cases he
        rw [hstring]
        rfl
      change (∃ r, decode runtime (.str text) definition representation = .ok r) ↔ _
      rw [decode_str hstring]
      by_cases hsize : definition.responseSizeLimit < (encodeUtf8 s).length
      · rw [if_pos hsize]
        refine ⟨fun _ => hdecodable fun text' hcontent => ?_,
          fun _ => (tooLarge_refused _ _ _).returns⟩
        obtain ⟨rfl, s', hs, hle⟩ := hcontent
        rw [hs] at hstring
        cases hstring
        omega
      · rw [if_neg hsize, decodeJson_returns_iff]
        refine ⟨fun h => hdecodable fun text' hcontent => ?_,
          fun h => h.integers text ⟨rfl, s, hstring, by omega⟩⟩
        obtain ⟨rfl, -⟩ := hcontent
        exact h
  | mapping items => exact hnested rfl (fun _ h => h) trivial
  | list items => exact hnested rfl (fun _ h => h) trivial
  | tuple items => exact hnested rfl (fun _ h => h) trivial
  | sequence name items => exact hnested rfl (fun _ h => h) trivial
  | _ =>
    exact ⟨fun _ => ⟨fun _ h => (by cases h), fun _ h => h.elim, fun h => h.elim⟩,
      fun _ => (unsupportedRepresentation_refused _).returns⟩

end Decode

section Records

variable {runtime : PythonRuntime} {definition : TaskDefinition} {response : ProviderValue}
  {d : Document} {records : List ProviderRecord}

/-- An object with exactly the two fields, both texts. -/
def Conforms (fields : CodeText × CodeText) (entries : List (CodeText × Document)) : Prop :=
  exactFields fields entries = true ∧ isText (entries.lookup fields.1) = true ∧
    isText (entries.lookup fields.2) = true

/-- The document is an array of conforming objects, which are the records once frozen. -/
def RecordsOf (function : TaskFunction) (d : Document) (records : List ProviderRecord) : Prop :=
  ∃ rows : List (List (CodeText × Document)), d = .array (rows.map .object) ∧
    (∀ row ∈ rows, Conforms (schemaFields function) row) ∧ records = rows.map frozenRecord

theorem validateRecord_cases (fields : CodeText × CodeText) (representation : String)
    (index : Nat) (item : Document) :
    (∃ entries, item = .object entries ∧ Conforms fields entries ∧
      validateRecord fields representation index item = .ok (.ok (frozenRecord entries))) ∨
    (¬∃ entries, item = .object entries ∧ Conforms fields entries) ∧
      Refused (validateRecord fields representation index item) := by
  cases item with
  | object entries =>
    rw [validateRecord]
    by_cases hexact : exactFields fields entries = false
    · rw [if_pos hexact]
      refine Or.inr ⟨?_, schemaFailure_refused _ _ _⟩
      rintro ⟨entries', he, hconforms⟩
      cases he
      exact Bool.false_ne_true (hexact.symm.trans hconforms.1)
    · rw [if_neg hexact]
      by_cases htexts : (isText (entries.lookup fields.1) && isText (entries.lookup fields.2)) =
          false
      · rw [if_pos htexts]
        refine Or.inr ⟨?_, schemaFailure_refused _ _ _⟩
        rintro ⟨entries', he, hconforms⟩
        cases he
        rw [hconforms.2.1, hconforms.2.2] at htexts
        cases htexts
      · rw [if_neg htexts]
        rw [Bool.not_eq_false] at hexact htexts
        rw [Bool.and_eq_true] at htexts
        exact Or.inl ⟨entries, rfl, ⟨hexact, htexts⟩, rfl⟩
  | _ => exact Or.inr ⟨fun ⟨_, he, _⟩ => (by cases he), schemaFailure_refused _ _ _⟩

/-- The loop finds the records of conforming objects, and refuses anything else. -/
theorem validateItems_cases (fields : CodeText × CodeText) (representation : String)
    (index : Nat) (items : List Document) :
    (∃ rows : List (List (CodeText × Document)), items = rows.map .object ∧
      (∀ row ∈ rows, Conforms fields row) ∧
      validateItems fields representation index items = .ok (.ok (rows.map frozenRecord))) ∨
    (¬∃ rows : List (List (CodeText × Document)), items = rows.map .object ∧
      ∀ row ∈ rows, Conforms fields row) ∧
      Refused (validateItems fields representation index items) := by
  induction items generalizing index with
  | nil => exact Or.inl ⟨[], rfl, fun _ h => (by cases h), rfl⟩
  | cons item rest ih =>
    rw [validateItems]
    rcases validateRecord_cases fields representation index item with
      ⟨entries, rfl, hconforms, hrecord⟩ | ⟨hnot, failed, hrecord⟩
    · rw [hrecord]
      rcases ih (index + 1) with ⟨rows, rfl, hrows, hrest⟩ | ⟨hnot, failed, hrest⟩
      · refine Or.inl ⟨entries :: rows, rfl, ?_, ?_⟩
        · rw [List.forall_mem_cons]
          exact ⟨hconforms, hrows⟩
        · change (validateItems fields representation (index + 1) (rows.map .object) >>= _) = _
          rw [hrest]
          rfl
      · refine Or.inr ⟨?_, failed, ?_⟩
        · rintro ⟨rows, he, hrows⟩
          cases rows with
          | nil => cases he
          | cons row rows =>
            rw [List.map_cons, List.cons.injEq] at he
            exact hnot ⟨rows, he.2, fun r hr => hrows r (List.mem_cons_of_mem _ hr)⟩
        · change (validateItems fields representation (index + 1) rest >>= _) = _
          rw [hrest]
          rfl
    · rw [hrecord]
      refine Or.inr ⟨?_, failed, rfl⟩
      rintro ⟨rows, he, hrows⟩
      cases rows with
      | nil => cases he
      | cons row rows =>
        rw [List.map_cons, List.cons.injEq] at he
        exact hnot ⟨row, he.1, hrows row (List.mem_cons_self ..)⟩

theorem validateRecords_cases (definition : TaskDefinition) (d : Document)
    (representation : String) :
    (∃ records, RecordsOf definition.function d records ∧
      validateRecords d definition representation = .ok (.ok records)) ∨
    (¬∃ records, RecordsOf definition.function d records) ∧
      Refused (validateRecords d definition representation) := by
  cases d with
  | array items =>
    rcases validateItems_cases (schemaFields definition.function) representation 0 items with
      ⟨rows, rfl, hrows, hitems⟩ | ⟨hnot, hrefused⟩
    · exact Or.inl ⟨rows.map frozenRecord, ⟨rows, rfl, hrows, rfl⟩, hitems⟩
    · refine Or.inr ⟨?_, hrefused⟩
      rintro ⟨records, rows, he, hrows, -⟩
      cases he
      exact hnot ⟨rows, rfl, hrows⟩
  | _ => exact Or.inr ⟨fun ⟨_, _, he, _⟩ => (by cases he), schemaFailure_refused _ _ _⟩

theorem RecordsOf.unique {function : TaskFunction} {first second : List ProviderRecord}
    (h : RecordsOf function d first) (h' : RecordsOf function d second) : first = second := by
  obtain ⟨rows, rfl, -, rfl⟩ := h
  obtain ⟨rows', he, -, rfl⟩ := h'
  have hrows : rows = rows' := by
    have hmap := JsonValue.array.inj he
    exact List.map_injective_iff.2 (fun _ _ h => JsonValue.object.inj h) hmap
  rw [hrows]

/-- A response gives records: it holds a document that is theirs, and it can be read. -/
def Gives (runtime : PythonRuntime) (definition : TaskDefinition) (response : ProviderValue)
    (records : List ProviderRecord) : Prop :=
  (Structured response → height response ≤ runtime.nesting) ∧
    ∃ d, Holds runtime definition.responseSizeLimit response d ∧
      RecordsOf definition.function d records

theorem Holds.distinct {limit : Int} (h : Holds runtime limit response d) : d.Distinct := by
  rcases h with ⟨text, -, t, -, hstrict, rfl⟩ | ⟨-, hplain⟩
  · exact JsonText.value_distinct hstrict
  · exact plain_distinct hplain

theorem parse_ok_iff (extractors : EnvelopeExtractors) :
    parse runtime extractors response definition none = .ok (.ok records) ↔
      Gives runtime definition response records := by
  change parseResponse runtime response definition _ = _ ↔ _
  unfold parseResponse Gives
  cases hdecode : decode runtime response definition (representation response) with
  | error e =>
    refine ⟨fun h => (by cases h), ?_⟩
    rintro ⟨hheight, d, hholds, -⟩
    rw [(decode_ok_iff _).2 ⟨hholds, hheight⟩] at hdecode
    cases hdecode
  | ok result =>
    cases result with
    | error failed =>
      refine ⟨fun h => (by cases h), ?_⟩
      rintro ⟨hheight, d, hholds, -⟩
      rw [(decode_ok_iff _).2 ⟨hholds, hheight⟩] at hdecode
      cases hdecode
    | ok d =>
      obtain ⟨hholds, hheight⟩ := (decode_ok_iff _).1 hdecode
      change validateRecords d definition _ = _ ↔ _
      constructor
      · intro h
        rcases validateRecords_cases definition d (representation response) with
          ⟨found, hrecords, hfound⟩ | ⟨-, hrefused⟩
        · rw [hfound] at h
          cases h
          exact ⟨hheight, d, hholds, hrecords⟩
        · exact absurd h (hrefused.ne_ok records)
      · rintro ⟨-, d', hholds', hrecords⟩
        rw [(decode_ok_iff _).2 ⟨hholds', hheight⟩] at hdecode
        cases hdecode
        rcases validateRecords_cases definition d (representation response) with
          ⟨found, hfound, h⟩ | ⟨hnot, -⟩
        · rw [h, hfound.unique hrecords]
        · exact absurd ⟨records, hrecords⟩ hnot

theorem parse_returns_iff (extractors : EnvelopeExtractors) :
    (∃ r, parse runtime extractors response definition none = .ok r) ↔
      Decodable runtime definition.responseSizeLimit response := by
  rw [← decode_returns_iff (representation response)]
  change (∃ r, parseResponse runtime response definition _ = _) ↔ _
  unfold parseResponse
  cases decode runtime response definition (representation response) with
  | error e => exact ⟨fun ⟨_, h⟩ => (by cases h), fun ⟨_, h⟩ => (by cases h)⟩
  | ok result =>
    refine ⟨fun _ => ⟨result, rfl⟩, fun _ => ?_⟩
    cases result with
    | error failed => exact ⟨.error failed, rfl⟩
    | ok d =>
      rcases validateRecords_cases definition d (representation response) with
        ⟨found, -, h⟩ | ⟨-, failed, h⟩
      · exact ⟨.ok found, h⟩
      · exact ⟨.error failed, h⟩

end Records

end AiRetrieval.StructuredOutputParser
