import AiRetrieval.Proofs.ConfigurationDigests
import AiRetrieval.Sanity.JsonData

/-! The bytes of `canonical_payload_bytes` identify a JSON value, where there are any. -/

namespace AiRetrieval

open CanonicalPayload ProviderValue StructuredOutputParser

/-- The interpreter reads the value within its recursion limit and prints its integers. -/
structure Writable (runtime : PythonRuntime) (value : ProviderValue) : Prop where
  nests : height value ≤ runtime.canonicalNesting
  printed : ∀ number ∈ value.integers, number.natAbs < 10 ^ maxStrDigits

/-- `canonical_payload_bytes` succeeds for both values, with equal bytes exactly when they are one
JSON value. -/
def Identified (runtime : PythonRuntime) (v w : ProviderValue) : Prop :=
  ∃ bytes bytes', canonicalPayloadBytes runtime v = .ok bytes ∧
    canonicalPayloadBytes runtime w = .ok bytes' ∧ (bytes = bytes' ↔ SameJson v w)

section Bytes

variable {runtime : PythonRuntime} {v w : ProviderValue}

theorem numberText_clean (value : PyFloat) : JsonValue.Clean (runtime.numberText value) :=
  JsonValue.clean_ofString _

theorem floatTexts_none {floatText : PyFloat → CodeText} :
    JsonValue.FloatTexts (fun _ => False) floatText :=
  ⟨fun _ h => h.elim, fun _ h => h.elim, fun _ _ h => h.elim⟩

theorem document_encoded (h : v.JsonData) :
    ∃ bytes, encodeText (v.document.sorted.render runtime.numberText) = .ok bytes := by
  have hencodable := JsonValue.encodable_sorted (document_encodable h)
  obtain ⟨s, hs⟩ := Option.isSome_iff_exists.1
    ((JsonValue.render_encodable_iff (@numberText_clean runtime) _).2 hencodable)
  exact ⟨_, encodeText_ok hs⟩

theorem canonicalPayloadBytes_eq_ok (h : v.JsonData) {bytes : Bytes} :
    canonicalPayloadBytes runtime v = .ok bytes ↔ Writable runtime v ∧
      (dumps runtime v.document >>= encodeText) = .ok bytes := by
  unfold canonicalPayloadBytes
  rw [except_mapError_eq_ok, canonicalPlain_eq h]
  by_cases hnests : height v ≤ runtime.canonicalNesting
  · rw [if_pos hnests]
    change (dumps runtime v.document >>= encodeText) = .ok bytes ↔ _
    refine ⟨fun hbytes => ⟨⟨hnests, ?_⟩, hbytes⟩, And.right⟩
    obtain ⟨text, htext, -⟩ := except_bind_eq_ok.1 hbytes
    unfold dumps at htext
    by_cases hprintable : printable v.document = true
    · exact (printable_document_iff h).1 hprintable
    · rw [if_neg hprintable] at htext
      cases htext
  · rw [if_neg hnests]
    refine iff_of_false (fun hbytes => ?_) fun hwritable => hnests hwritable.1.nests
    cases hbytes

theorem Writable.bytes (hwritable : Writable runtime v) (h : v.JsonData) :
    ∃ bytes, (dumps runtime v.document >>= encodeText) = .ok bytes := by
  obtain ⟨bytes, hbytes⟩ : ∃ bytes,
    encodeText (v.document.sorted.render runtime.numberText) = .ok bytes := document_encoded h
  refine ⟨bytes, except_bind_eq_ok.2 ⟨_, ?_, hbytes⟩⟩
  unfold dumps
  rw [if_pos ((printable_document_iff h).2 hwritable.printed)]

end Bytes

/-- Two values that JSON can write have canonical bytes that identify them, exactly when both
nest within the recursion limit and hold no integer of more digits than Python prints. -/
theorem canonical_payload_identifies_iff (runtime : PythonRuntime) (v w : ProviderValue)
    (hv : v.JsonData) (hw : w.JsonData) :
    Identified runtime v w ↔ Writable runtime v ∧ Writable runtime w := by
  constructor
  · rintro ⟨bytes, bytes', hbytes, hbytes', -⟩
    exact ⟨((canonicalPayloadBytes_eq_ok hv).1 hbytes).1,
      ((canonicalPayloadBytes_eq_ok hw).1 hbytes').1⟩
  · rintro ⟨hwritable, hwritable'⟩
    obtain ⟨bytes, hbytes⟩ := hwritable.bytes hv
    obtain ⟨bytes', hbytes'⟩ := hwritable'.bytes hw
    refine ⟨bytes, bytes', (canonicalPayloadBytes_eq_ok hv).2 ⟨hwritable, hbytes⟩,
      (canonicalPayloadBytes_eq_ok hw).2 ⟨hwritable', hbytes'⟩, ?_⟩
    rw [CanonicalForm.encoded_eq_iff floatTexts_none (document_floats hv) (document_floats hw)
      hbytes hbytes']
    exact ⟨same_of_sorted_eq hv hw, fun hsame => sorted_eq_of_same hsame hv hw⟩

namespace Sample

/-- `{"label": None, "rows": [True, 1]}`, with the keys in the other order and a tuple. -/
def rowsFirst : ProviderValue :=
  .mapping [(.str (CodeText.ofString "rows"), .tuple [.bool true, .int 1]),
    (.str (CodeText.ofString "label"), .none)]

theorem rowsFirst_data : rowsFirst.JsonData := by
  have h : (keyed [(CodeText.ofString "rows", .tuple [.bool true, .int 1]),
      (CodeText.ofString "label", .none)]).JsonData := by
    refine .mapping ?_ (by decide) ?_
    · intro entry hentry
      simp only [List.mem_cons, List.not_mem_nil, or_false] at hentry
      rcases hentry with rfl | rfl <;> decide
    · intro entry hentry
      simp only [List.mem_cons, List.not_mem_nil, or_false] at hentry
      rcases hentry with rfl | rfl
      · refine .sequence rfl fun item hitem => ?_
        simp only [List.mem_cons, List.not_mem_nil, or_false] at hitem
        rcases hitem with rfl | rfl
        · exact .bool true
        · exact .int 1
      · exact .none
  exact h

end Sample

theorem canonical_payload_identifies_sample :
    Identified Sample.digests Sample.rowsFirst (.int 1) ↔
      Writable Sample.digests Sample.rowsFirst ∧ Writable Sample.digests (.int 1) :=
  canonical_payload_identifies_iff Sample.digests Sample.rowsFirst (.int 1) Sample.rowsFirst_data
    (.int 1)

/-- `10 ** 4300` is an integer that JSON cannot write. -/
theorem long_integer_has_no_payload :
    canonicalPayloadBytes Sample.digests (.int (10 ^ 4300)) =
      .error (serializationError tooManyDigits) ∧
    ¬∀ v w : ProviderValue, v.JsonData → w.JsonData → Identified Sample.digests v w := by
  have hraises : canonicalPayloadBytes Sample.digests (.int (10 ^ 4300)) =
      .error (serializationError tooManyDigits) := by
    decide +kernel
  refine ⟨hraises, fun h => ?_⟩
  obtain ⟨bytes, _, hbytes, -⟩ := h _ (.int 1) (.int (10 ^ 4300)) (.int 1)
  cases hraises.symm.trans hbytes

end AiRetrieval
