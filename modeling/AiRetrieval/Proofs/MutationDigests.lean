import AiRetrieval.Proofs.CanonicalPayloads
import AiRetrieval.Sanity.WriteBackMoves

/-! What a mutation digest identifies. The dictionary it is made of is written in ASCII, which
shows the UTF-16 units of a text: a character outside the first plane and the two lone surrogates
of its pair are written alike. -/

namespace AiRetrieval

open CodeText JsonValue

namespace ParameterValue

variable {isPrintable : Char → Bool}

def Printed : ParameterValue → Prop
  | .int value => value.natAbs < 10 ^ CanonicalPayload.maxStrDigits
  | _ => True

theorem repr_ok_iff {value : ParameterValue} :
    (∃ text, value.repr isPrintable = .ok text) ↔ value.Printed := by
  cases value with
  | int value =>
    simp only [repr, Printed]
    by_cases hshort : value.natAbs < 10 ^ CanonicalPayload.maxStrDigits
    · rw [if_pos hshort]
      exact iff_of_true ⟨_, rfl⟩ hshort
    · rw [if_neg hshort]
      refine iff_of_false ?_ hshort
      rintro ⟨text, h⟩
      cases h
  | none | bool | str => exact iff_of_true ⟨_, rfl⟩ trivial

theorem repr_int {value : Int} {text : CodeText}
    (h : (ParameterValue.int value).repr isPrintable = .ok text) :
    text = CodeText.ofString (toString value) := by
  simp only [repr] at h
  split at h
  · exact (Except.ok.inj h).symm
  · cases h

theorem repr_clean {value : ParameterValue} {text : CodeText}
    (h : value.repr isPrintable = .ok text) : ∀ p ∈ text, (p.char?).isSome = true := by
  cases value with
  | int value =>
    rw [repr_int h]
    exact fun _ => CodeText.char?_of_mem_ofString
  | none | bool =>
    cases h
    exact fun _ => CodeText.char?_of_mem_ofString
  | str value =>
    cases h
    exact CodeText.repr_clean value

def form : ParameterValue → Fin 5
  | .none => 0
  | .bool false => 1
  | .bool true => 2
  | .int _ => 3
  | .str _ => 4

/-- What a `repr` of a form begins with: a capital letter, a digit or a sign, or a quote. -/
def initials : Fin 5 → List CodePoint
  | 0 => [0x4E]
  | 1 => [0x46]
  | 2 => [0x54]
  | 3 => JsonValue.integral
  | 4 => [0x27, 0x22]

theorem initials_apart (i j : Fin 5) (p : CodePoint) (hi : p ∈ initials i) (hj : p ∈ initials j) :
    i = j := by
  have h : ((List.finRange 5).all fun i => (List.finRange 5).all fun j =>
      (initials i).all fun p => !(initials j).contains p || i = j) = true := by
    decide +kernel
  have hij := List.all_eq_true.1 (List.all_eq_true.1 (List.all_eq_true.1 h i
    (List.mem_finRange i)) j (List.mem_finRange j)) p hi
  rw [List.contains_iff_mem.2 hj] at hij
  exact of_decide_eq_true hij

theorem integer_ne_nil (value : Int) : CodeText.ofString (toString value) ≠ [] := by
  intro h
  have hlist := List.map_eq_nil_iff.1 h
  rw [JsonValue.toList_toString] at hlist
  cases value with
  | ofNat n => exact Nat.toDigits_ne_nil hlist
  | negSucc n => cases hlist

theorem repr_begins {value : ParameterValue} {text : CodeText}
    (h : value.repr isPrintable = .ok text) :
    ∃ p rest, text = p :: rest ∧ p ∈ initials value.form := by
  cases value with
  | none =>
    cases h
    exact ⟨_, _, rfl, List.mem_singleton_self _⟩
  | bool truth =>
    cases h
    cases truth
    · exact ⟨_, _, rfl, List.mem_singleton_self _⟩
    · exact ⟨_, _, rfl, List.mem_singleton_self _⟩
  | int value =>
    rw [repr_int h]
    rcases htext : CodeText.ofString (toString value) with _ | ⟨p, rest⟩
    · exact absurd htext (integer_ne_nil value)
    · refine ⟨p, rest, rfl, JsonValue.integer_integral value p ?_⟩
      rw [htext]
      exact List.mem_cons_self ..
  | str value =>
    cases h
    refine ⟨_, _, rfl, ?_⟩
    have hquotes : initials (ParameterValue.str value).form = [0x27, 0x22] := rfl
    rw [hquotes]
    rcases CodeText.reprQuote_eq value with hquote | hquote <;> rw [hquote] <;> decide

theorem repr_injective {value other : ParameterValue} {text : CodeText}
    (h : value.repr isPrintable = .ok text) (h' : other.repr isPrintable = .ok text) :
    value = other := by
  obtain ⟨p, rest, htext, hp⟩ := repr_begins h
  obtain ⟨q, rest', htext', hq⟩ := repr_begins h'
  obtain ⟨rfl, -⟩ := List.cons.inj (htext.symm.trans htext')
  have hform := initials_apart _ _ p hp hq
  cases value with
  | none =>
    cases other with
    | none => rfl
    | bool truth => cases truth <;> cases hform
    | int | str => cases hform
  | bool truth =>
    cases other with
    | bool truth' => cases truth <;> cases truth' <;> first | rfl | cases hform
    | none | int | str => cases truth <;> cases hform
  | int n =>
    cases other with
    | int n' =>
      have hsame := (repr_int h).symm.trans (repr_int h')
      rw [JsonValue.toString_int_injective (CodeText.ofString_injective hsame)]
    | bool truth => cases truth <;> cases hform
    | none | str => cases hform
  | str text =>
    cases other with
    | str text' =>
      have hsame : text.repr isPrintable = text'.repr isPrintable :=
        (Except.ok.inj h).trans (Except.ok.inj h').symm
      rw [CodeText.repr_injective hsame]
    | bool truth => cases truth <;> cases hform
    | none | int => cases hform

end ParameterValue

namespace CommandMutation

theorem canonical_sorted (dataScope targetDataset rowScope : CodeText) (columns : List CodeText)
    (mutationType : CodeText) (parameters : List (CodeText × CodeText)) (hash : CodeText) :
    (canonical dataScope targetDataset rowScope columns mutationType parameters hash).sorted =
      .object [
        (CodeText.ofString "columns", .array (columns.map .text)),
        (CodeText.ofString "data_scope", .text dataScope),
        (CodeText.ofString "mutation_type", .text mutationType),
        (CodeText.ofString "parameters",
          .array (parameters.map fun item => .array [.text item.1, .text item.2])),
        (CodeText.ofString "row_scope", .text rowScope),
        (CodeText.ofString "target_dataset", .text targetDataset),
        (CodeText.ofString "validated_output_hash", .text hash)] := by
  have htexts (texts : List CodeText) : (texts.map (JsonValue.text (φ := PyFloat))).map sorted =
      texts.map .text := by
    rw [List.map_map]
    rfl
  have hpairs : (parameters.map fun item =>
      (JsonValue.array [.text item.1, .text item.2] : Document)).map sorted =
      parameters.map fun item => .array [.text item.1, .text item.2] := by
    rw [List.map_map]
    rfl
  rw [canonical, sorted, sortedEntries_eq_map]
  simp only [List.map_cons, List.map_nil, sorted, sortedItems_eq_map, htexts, hpairs]
  rfl

theorem canonical_units (dataScope targetDataset rowScope : CodeText) (columns : List CodeText)
    (mutationType : CodeText) (parameters : List (CodeText × CodeText)) (hash : CodeText) :
    (canonical dataScope targetDataset rowScope columns mutationType parameters
        hash).sorted.mapTexts units =
      (canonical (units dataScope) (units targetDataset) (units rowScope) (columns.map units)
        (units mutationType) (parameters.map fun item => (units item.1, units item.2))
        (units hash)).sorted := by
  have htexts : (columns.map (JsonValue.text (φ := PyFloat))).map (·.mapTexts units) =
      (columns.map units).map .text := by
    rw [List.map_map, List.map_map]
    rfl
  have hpairs : (parameters.map fun item =>
      (JsonValue.array [.text item.1, .text item.2] : Document)).map (·.mapTexts units) =
      (parameters.map fun item => (units item.1, units item.2)).map fun item =>
        .array [.text item.1, .text item.2] := by
    rw [List.map_map, List.map_map]
    rfl
  have hkeys : ∀ key ∈ ["columns", "data_scope", "mutation_type", "parameters", "row_scope",
      "target_dataset", "validated_output_hash"],
      units (CodeText.ofString key) = CodeText.ofString key := by
    decide +kernel
  simp only [List.forall_mem_cons] at hkeys
  rw [canonical_sorted, canonical_sorted]
  simp only [mapTexts, mapEntries, mapItems_eq_map, htexts, hpairs, hkeys]

theorem canonical_floats (dataScope targetDataset rowScope : CodeText) (columns : List CodeText)
    (mutationType : CodeText) (parameters : List (CodeText × CodeText)) (hash : CodeText) :
    (canonical dataScope targetDataset rowScope columns mutationType parameters hash).Floats
      fun _ => False := by
  simp only [canonical, Floats, FloatsEntries, floatsItems_iff, List.forall_mem_map, FloatsItems,
    implies_true, and_true]

theorem canonical_injective {dataScope targetDataset rowScope : CodeText} {columns : List CodeText}
    {mutationType : CodeText} {parameters : List (CodeText × CodeText)} {hash : CodeText}
    {dataScope' targetDataset' rowScope' : CodeText} {columns' : List CodeText}
    {mutationType' : CodeText} {parameters' : List (CodeText × CodeText)} {hash' : CodeText}
    (h : (canonical dataScope targetDataset rowScope columns mutationType parameters hash).sorted =
      (canonical dataScope' targetDataset' rowScope' columns' mutationType' parameters'
        hash').sorted) :
    dataScope = dataScope' ∧ targetDataset = targetDataset' ∧ rowScope = rowScope' ∧
      columns = columns' ∧ mutationType = mutationType' ∧ parameters = parameters' ∧
      hash = hash' := by
  have htexts : Function.Injective (List.map (JsonValue.text (φ := PyFloat))) :=
    List.map_injective_iff.2 fun a b hab => JsonValue.text.inj hab
  have hpairs : Function.Injective (List.map fun item : CodeText × CodeText =>
      (JsonValue.array [.text item.1, .text item.2] : Document)) := by
    refine List.map_injective_iff.2 fun a b hab => ?_
    simp only [JsonValue.array.injEq, List.cons.injEq, JsonValue.text.injEq, and_true] at hab
    exact Prod.ext hab.1 hab.2
  rw [canonical_sorted, canonical_sorted] at h
  simp only [JsonValue.object.injEq, List.cons.injEq, Prod.mk.injEq, JsonValue.array.injEq,
    JsonValue.text.injEq, true_and, and_true] at h
  obtain ⟨hcolumns, hdata, htype, hparameters, hrow, htarget, hhash⟩ := h
  exact ⟨hdata, htarget, hrow, htexts hcolumns, htype, hpairs hparameters, hhash⟩

section Digests

variable {runtime : PythonRuntime} {isPrintable : Char → Bool} {m m' : CommandMutation}
  {payload payload' : Bytes}

/-- Every parameter value has a `repr`. -/
def Printed (m : CommandMutation) : Prop := ∀ item ∈ m.parameters, item.2.Printed

/-- Two mutations with the same texts in UTF-16. -/
structure SameUnits (m m' : CommandMutation) : Prop where
  dataScope : units m.dataScope = units m'.dataScope
  targetDataset : units m.targetDataset = units m'.targetDataset
  rowScope : units m.rowScope = units m'.rowScope
  columns : m.columns.items.map units = m'.columns.items.map units
  mutationType : m.mutationType = m'.mutationType
  parameters : (m.parameters.map fun item => (units item.1, item.2)) =
    m'.parameters.map fun item => (units item.1, item.2)

theorem reprs_ok_iff : (∃ parameters, reprs isPrintable m = .ok parameters) ↔ m.Printed := by
  unfold reprs reprsOf Printed
  induction m.parameters with
  | nil => exact iff_of_true ⟨[], rfl⟩ fun _ h => (by cases h)
  | cons item rest ih =>
    rw [List.forall_mem_cons, ← ih, ← @ParameterValue.repr_ok_iff isPrintable,
      List.mapM_cons]
    constructor
    · rintro ⟨parameters, h⟩
      obtain ⟨first, hfirst, h⟩ := except_bind_eq_ok.1 h
      obtain ⟨others, hothers, -⟩ := except_bind_eq_ok.1 h
      obtain ⟨text, htext, -⟩ := except_bind_eq_ok.1 hfirst
      exact ⟨⟨text, htext⟩, others, hothers⟩
    · rintro ⟨⟨text, htext⟩, others, hothers⟩
      refine ⟨(item.1, text) :: others, except_bind_eq_ok.2 ⟨(item.1, text), ?_, ?_⟩⟩
      · exact except_bind_eq_ok.2 ⟨text, htext, rfl⟩
      · exact except_bind_eq_ok.2 ⟨others, hothers, rfl⟩

theorem reprs_forall {parameters : List (CodeText × CodeText)}
    (h : reprs isPrintable m = .ok parameters) :
    List.Forall₂ (fun item pair => item.1 = pair.1 ∧ item.2.repr isPrintable = .ok pair.2)
      m.parameters parameters := by
  refine (except_mapM_ok_iff.1 h).imp fun item pair hpair => ?_
  obtain ⟨text, htext, hpair⟩ := except_bind_eq_ok.1 hpair
  cases hpair
  exact ⟨rfl, htext⟩

/-- The parameters are written alike exactly when their names have the same units, and their
values are the same. -/
theorem reprs_eq_iff {items items' : List (CodeText × ParameterValue)}
    {pairs pairs' : List (CodeText × CodeText)}
    (h : List.Forall₂ (fun item pair => item.1 = pair.1 ∧ item.2.repr isPrintable = .ok pair.2)
      items pairs)
    (h' : List.Forall₂ (fun item pair => item.1 = pair.1 ∧ item.2.repr isPrintable = .ok pair.2)
      items' pairs') :
    (pairs.map fun pair => (units pair.1, units pair.2)) =
        (pairs'.map fun pair => (units pair.1, units pair.2)) ↔
      (items.map fun item => (units item.1, item.2)) =
        items'.map fun item => (units item.1, item.2) := by
  induction h generalizing items' pairs' with
  | nil =>
    cases h' with
    | nil => exact iff_of_true rfl rfl
    | cons => exact iff_of_false (fun h => by cases h) (fun h => by cases h)
  | cons hfirst _ ih =>
    cases h' with
    | nil => exact iff_of_false (fun h => by cases h) (fun h => by cases h)
    | cons hfirst' hrest' =>
      simp only [List.map_cons, List.cons.injEq, Prod.mk.injEq, ih hrest']
      rw [hfirst.1, hfirst'.1]
      refine and_congr_left fun _ => and_congr_right fun _ => ?_
      constructor
      · intro hunits
        have htext := units_injective (ParameterValue.repr_clean hfirst.2)
          (ParameterValue.repr_clean hfirst'.2) hunits
        exact ParameterValue.repr_injective hfirst.2 (htext ▸ hfirst'.2)
      · intro hvalue
        have hsame := hfirst.2.symm.trans (hvalue ▸ hfirst'.2)
        rw [Except.ok.inj hsame]

theorem kind_injective : ∀ a b : OperationKind, a.value = b.value → a = b := by
  intro a b
  cases a <;> cases b <;> decide

theorem digest_ok_iff : (∃ d, m.digest runtime isPrintable payload = .ok d) ↔ m.Printed := by
  rw [← @reprs_ok_iff isPrintable]
  unfold digest
  constructor
  · rintro ⟨d, h⟩
    obtain ⟨parameters, hparameters, -⟩ := except_bind_eq_ok.1 h
    exact ⟨parameters, hparameters⟩
  · rintro ⟨parameters, hparameters⟩
    obtain ⟨d, hd⟩ := digestOf_returns runtime.sha256 (canonical m.dataScope m.targetDataset
      m.rowScope m.columns.items (CodeText.ofString m.mutationType.value) parameters
      (CodeText.ofString (runtime.sha256 payload)))
    exact ⟨d, except_bind_eq_ok.2 ⟨parameters, hparameters, hd⟩⟩

/-- Two digests are equal exactly when the payloads are, and the mutations in UTF-16. -/
theorem digest_eq_iff (hsha : Function.Injective runtime.sha256) {d d' : String}
    (h : m.digest runtime isPrintable payload = .ok d)
    (h' : m'.digest runtime isPrintable payload' = .ok d') :
    d = d' ↔ SameUnits m m' ∧ payload = payload' := by
  unfold digest at h h'
  obtain ⟨parameters, hparameters, h⟩ := except_bind_eq_ok.1 h
  obtain ⟨parameters', hparameters', h'⟩ := except_bind_eq_ok.1 h'
  obtain ⟨bytes, hbytes, h⟩ := except_bind_eq_ok.1 h
  obtain ⟨bytes', hbytes', h'⟩ := except_bind_eq_ok.1 h'
  have hreprs := reprs_eq_iff (reprs_forall hparameters) (reprs_forall hparameters')
  cases h
  cases h'
  rw [hsha.eq_iff]
  constructor
  · rintro rfl
    have htext := CanonicalForm.encodeText_injective hbytes hbytes'
    rw [write_ascii, write_ascii, canonical_units, canonical_units] at htext
    have hsorted := write_injective unitStyle_readable (floatTexts_none)
      (floats_sorted (canonical_floats ..)) (floats_sorted (canonical_floats ..)) htext
    obtain ⟨hdata, htarget, hrow, hcolumns, htype, hpairs, hhash⟩ := canonical_injective hsorted
    have hstring {a b : String} (h : units (CodeText.ofString a) = units (CodeText.ofString b)) :
        a = b :=
      CodeText.ofString_injective (units_injective (fun _ => CodeText.char?_of_mem_ofString)
        (fun _ => CodeText.char?_of_mem_ofString) h)
    exact ⟨⟨hdata, htarget, hrow, hcolumns, kind_injective _ _ (hstring htype),
      hreprs.1 hpairs⟩, hsha (hstring hhash)⟩
  · rintro ⟨hsame, rfl⟩
    have htext : (canonical m.dataScope m.targetDataset m.rowScope m.columns.items
          (CodeText.ofString m.mutationType.value) parameters
          (CodeText.ofString (runtime.sha256 payload))).sorted.write asciiStyle (fun _ => []) =
        (canonical m'.dataScope m'.targetDataset m'.rowScope m'.columns.items
          (CodeText.ofString m'.mutationType.value) parameters'
          (CodeText.ofString (runtime.sha256 payload))).sorted.write asciiStyle
            fun _ => [] := by
      rw [write_ascii, write_ascii, canonical_units, canonical_units, hsame.dataScope,
        hsame.targetDataset, hsame.rowScope, hsame.columns, hsame.mutationType,
        hreprs.2 hsame.parameters]
    rw [htext, hbytes'] at hbytes
    exact (Except.ok.inj hbytes).symm

end Digests

end CommandMutation

open CommandMutation

/-- Two commands have digests, which are equal exactly when the commands denote one mutation, and
a request for the one passes as the effect of the other exactly then. -/
structure Identifies (runtime : PythonRuntime) (isPrintable : Char → Bool)
    (m : CommandMutation) (payload : Bytes) (m' : CommandMutation) (payload' : Bytes) : Prop where
  digest : ∃ d d', m.digest runtime isPrintable payload = .ok d ∧
    m'.digest runtime isPrintable payload' = .ok d' ∧ (d = d' ↔ m = m' ∧ payload = payload')
  effect : ∀ item record request,
    EffectIdentity.ofCommand runtime isPrintable item m payload = .ok record →
    EffectIdentity.ofCommand runtime isPrintable item m' payload' = .ok request →
    m.rowScope = m'.rowScope →
    (EffectIdentity.assertSame record request = .ok () ↔ m = m' ∧ payload = payload')

/-- For an injective SHA-256, the digests of two commands identify their mutations exactly when
each parameter value has a `repr` and no two different texts of the commands are the same in
UTF-16. -/
theorem mutation_digest_identifies_iff (runtime : PythonRuntime) (isPrintable : Char → Bool)
    (hsha : Function.Injective runtime.sha256) (m m' : CommandMutation) (payload payload' : Bytes) :
    Identifies runtime isPrintable m payload m' payload' ↔
      m.Printed ∧ m'.Printed ∧ (payload = payload' → SameUnits m m' → m = m') := by
  have hsame (h : m = m') : SameUnits m m' := by
    subst h
    exact ⟨rfl, rfl, rfl, rfl, rfl, rfl⟩
  constructor
  · rintro ⟨⟨d, d', hd, hd', hiff⟩, -⟩
    refine ⟨digest_ok_iff.1 ⟨d, hd⟩, digest_ok_iff.1 ⟨d', hd'⟩, fun hpayload hunits => ?_⟩
    exact (hiff.1 ((digest_eq_iff hsha hd hd').2 ⟨hunits, hpayload⟩)).1
  · rintro ⟨hprinted, hprinted', hapart⟩
    have hdigests {d d' : String} (hd : m.digest runtime isPrintable payload = .ok d)
        (hd' : m'.digest runtime isPrintable payload' = .ok d') :
        d = d' ↔ m = m' ∧ payload = payload' := by
      rw [digest_eq_iff hsha hd hd']
      exact ⟨fun h => ⟨hapart h.2 h.1, h.2⟩, fun h => ⟨hsame h.1, h.2⟩⟩
    refine ⟨?_, fun item record request hrecord hrequest _ => ?_⟩
    · obtain ⟨d, hd⟩ := (@digest_ok_iff runtime isPrintable m payload).2 hprinted
      obtain ⟨d', hd'⟩ := (@digest_ok_iff runtime isPrintable m' payload').2 hprinted'
      exact ⟨d, d', hd, hd', hdigests hd hd'⟩
    · obtain ⟨bytes, hbytes, hrecord⟩ := except_bind_eq_ok.1 hrecord
      obtain ⟨d, hd, hrecord⟩ := except_bind_eq_ok.1 hrecord
      obtain ⟨bytes', hbytes', hrequest⟩ := except_bind_eq_ok.1 hrequest
      obtain ⟨d', hd', hrequest⟩ := except_bind_eq_ok.1 hrequest
      cases hrecord
      cases hrequest
      unfold EffectIdentity.assertSame
      rw [require_eq_ok, ← hdigests hd hd', EffectIdentity.mk.injEq]
      constructor
      · rintro ⟨-, -, -, hdigest⟩
        exact hdigest
      · intro hdigest
        obtain ⟨rfl, -⟩ := (hdigests hd hd').1 hdigest
        cases hbytes.symm.trans hbytes'
        exact ⟨rfl, rfl, rfl, hdigest⟩

namespace Sample

def mutationOf (dataScope : CodeText) : CommandMutation where
  dataScope := dataScope
  targetDataset := CodeText.ofString "orders"
  rowScope := CodeText.ofString "id=1"
  columns := ⟨[CodeText.ofString "label"], List.pairwise_singleton _ _, List.nodup_singleton _⟩
  mutationType := .update
  parameters := [(CodeText.ofString "label", .str (CodeText.ofString "it's ok")),
    (CodeText.ofString "id", .int 1)]

/-- A character outside the first plane. -/
def emoji : CodeText := [0x1F600]

/-- The two lone surrogates of its pair. -/
def pair : CodeText := [0xD83D, 0xDE00]

theorem mutationOf_printed (dataScope : CodeText) : (mutationOf dataScope).Printed := by
  unfold Printed mutationOf
  rw [List.forall_mem_cons, List.forall_mem_singleton]
  refine ⟨trivial, ?_⟩
  show (1 : Int).natAbs < 10 ^ CanonicalPayload.maxStrDigits
  exact Nat.one_lt_pow (by decide) (by decide)

theorem emoji_pair : SameUnits (mutationOf emoji) (mutationOf pair) :=
  ⟨by decide +kernel, rfl, rfl, rfl, rfl, rfl⟩

theorem emoji_ne_pair : mutationOf emoji ≠ mutationOf pair := by
  intro h
  have hscope : emoji = pair := congrArg CommandMutation.dataScope h
  revert hscope
  decide

end Sample

theorem mutation_digest_identifies_sample :
    Identifies Sample.digests Char.isAlphanum (Sample.mutationOf Sample.emoji) []
        (Sample.mutationOf []) [] ↔
      (Sample.mutationOf Sample.emoji).Printed ∧ (Sample.mutationOf []).Printed ∧
        (([] : Bytes) = [] → SameUnits (Sample.mutationOf Sample.emoji) (Sample.mutationOf []) →
          Sample.mutationOf Sample.emoji = Sample.mutationOf []) :=
  mutation_digest_identifies_iff Sample.digests Char.isAlphanum Sample.digests_injective
    (Sample.mutationOf Sample.emoji) (Sample.mutationOf []) [] []

/-- The data scope of one character and that of its two surrogates are digested alike, so the
effect of the one passes as that of the other. -/
theorem surrogates_share_a_digest :
    Function.Injective Sample.digests.sha256 ∧
    Sample.mutationOf Sample.emoji ≠ Sample.mutationOf Sample.pair ∧
    (∃ d, (Sample.mutationOf Sample.emoji).digest Sample.digests Char.isAlphanum [] = .ok d ∧
      (Sample.mutationOf Sample.pair).digest Sample.digests Char.isAlphanum [] = .ok d) ∧
    ¬Identifies Sample.digests Char.isAlphanum (Sample.mutationOf Sample.emoji) []
      (Sample.mutationOf Sample.pair) [] := by
  obtain ⟨d, hd⟩ := (@digest_ok_iff Sample.digests Char.isAlphanum _ []).2
    (Sample.mutationOf_printed Sample.emoji)
  obtain ⟨d', hd'⟩ := (@digest_ok_iff Sample.digests Char.isAlphanum _ []).2
    (Sample.mutationOf_printed Sample.pair)
  have hsame : d = d' := (digest_eq_iff Sample.digests_injective hd hd').2 ⟨Sample.emoji_pair, rfl⟩
  refine ⟨Sample.digests_injective, Sample.emoji_ne_pair, ⟨d, hd, hsame ▸ hd'⟩, fun h => ?_⟩
  obtain ⟨e, e', he, he', hiff⟩ := h.digest
  cases hd.symm.trans he
  cases hd'.symm.trans he'
  exact Sample.emoji_ne_pair (hiff.1 hsame).1

end AiRetrieval
