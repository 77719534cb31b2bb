import AiRetrieval.Sanity.NormalizedRows
import Mathlib.Data.List.Perm.Basic

/-! The order of a normalized result: what it is, and when it is the same for two results that
have the same rows. -/

namespace AiRetrieval

open Normalization

/-- A term puts one cell before another. -/
def TermBefore (term : OrderTerm) (a b : ScalarValue) : Prop :=
  (a = .none ∧ b ≠ .none ∧ term.val.nulls = .first) ∨
  (a ≠ .none ∧ b = .none ∧ term.val.nulls = .last) ∨
  (a ≠ .none ∧ b ≠ .none ∧
    (term.val.direction = .ascending ∧ ScalarValue.less a b = true ∨
      term.val.direction = .descending ∧ ScalarValue.less b a = true))

/-- The first term on which two rows differ puts one before the other. -/
def RowBefore (columns : List RelationalColumn) (left right : List ScalarValue) :
    List OrderTerm → Prop
  | [] => False
  | term :: rest =>
    TermBefore term (cellOf columns left term) (cellOf columns right term) ∨
      cellOf columns left term = cellOf columns right term ∧ RowBefore columns left right rest

/-- Rows in the order of some terms, those that tie in the order they had. -/
structure OrderedAs (columns : List RelationalColumn) (terms : List OrderTerm)
    (rows ordered : List NormalizedRow) : Prop where
  perm : ordered.Perm rows
  sorted : ordered.Pairwise fun a b => ¬RowBefore columns b.values a.values terms
  stable : ∀ row ∈ rows,
    (ordered.filter fun other => TiesOn columns terms row.values other.values) =
    rows.filter fun other => TiesOn columns terms row.values other.values

section Before

variable {columns : List RelationalColumn} {terms : List OrderTerm}

theorem compareCells_neg_iff {type : NormalizedType} {term : OrderTerm} {a b : ScalarValue}
    (ha : ScalarValue.Fits type a) (hb : ScalarValue.Fits type b) :
    compareCells term a b < 0 ↔ TermBefore term a b := by
  unfold TermBefore
  rcases ha with rfl | ha
  · rcases hb with rfl | hb
    · simp
    · have hne := ne_none hb
      rw [compareCells_none_left term hne]
      cases hnulls : term.val.nulls <;> simp [nullSign, hnulls, hne]
  · have hneA := ne_none ha
    rcases hb with rfl | hb
    · rw [compareCells_none_right term hneA]
      cases hnulls : term.val.nulls <;> simp [nullSign, hnulls, hneA]
    · have hneB := ne_none hb
      have hasymm := less_asymm ha hb
      rw [compareCells_values term hneA hneB]
      cases hdirection : term.val.direction with
      | ascending =>
        cases hless : ScalarValue.less a b with
        | true => simp [threeWay, hasymm hless, hneA, hneB]
        | false => cases hless' : ScalarValue.less b a <;> simp [threeWay, hneA, hneB]
      | descending =>
        cases hless : ScalarValue.less a b with
        | true => simp [threeWay, hasymm hless, hneA, hneB]
        | false => cases hless' : ScalarValue.less b a <;> simp [threeWay, hneA, hneB]

theorem compareRows_neg_iff
    (hterms : ∀ term ∈ terms, term.val.column ∈ columns.map (·.name))
    {left right : List ScalarValue} (hleft : FitsColumns columns left)
    (hright : FitsColumns columns right) :
    compareRows left right (terms.map fun term =>
      ((columns.map (·.name)).idxOf term.val.column, term)) < 0 ↔
    RowBefore columns left right terms := by
  rw [compareRows_eq]
  induction terms with
  | nil => exact iff_of_false (by simp [inOrder]) fun h => h
  | cons term rest ih =>
    rw [List.forall_mem_cons] at hterms
    have hindex := List.idxOf_lt_length_of_mem hterms.1
    rw [List.length_map] at hindex
    have hfits := cell_fits hleft hindex
    have hfits' := cell_fits hright hindex
    have hneg : compareCells term _ _ < 0 ↔ _ := compareCells_neg_iff hfits hfits'
    have hzero : compareCells term _ _ = 0 ↔ _ := compareCells_eq_zero_iff hfits hfits'
    rw [List.map_cons, inOrder, RowBefore]
    by_cases htie : compareCells term (cellOf columns left term) (cellOf columns right term) = 0
    · rw [if_neg (fun h => h htie), ih hterms.2]
      have hnot : ¬TermBefore term (cellOf columns left term) (cellOf columns right term) :=
        fun hbefore => absurd (hneg.2 hbefore) (by
          change ¬compareCells term (cellOf columns left term) (cellOf columns right term) < 0
          omega)
      exact ⟨fun h => Or.inr ⟨hzero.1 htie, h⟩, fun h => (h.resolve_left hnot).2⟩
    · rw [if_pos htie]
      refine ⟨fun h => Or.inl (hneg.1 h), fun h => hneg.2 (h.resolve_right fun hsame => ?_)⟩
      exact htie (hzero.2 hsame.1)

end Before

theorem normalizeResult_eq_ok {runtime : RelationalRuntime} {raw : RawRelationalResult}
    {plan : QueryPlan} {protection : ProtectionMetadata} {adapterVersion : String}
    {result : NormalizedResult}
    (h : normalizeResult runtime raw plan protection adapterVersion = .ok result) :
    ∃ rows, normalizeRows runtime raw = .ok rows ∧
      orderRows plan raw.columns rows = .ok result.rows := by
  obtain ⟨rows, hrows, h⟩ := except_bind_eq_ok.1 h
  obtain ⟨ordered, hordered, h⟩ := except_bind_eq_ok.1 h
  cases h
  exact ⟨rows, hrows, hordered⟩

/-- The rows of a result in the order of the plan. -/
theorem rows_ordered (runtime : RelationalRuntime) (raw : RawRelationalResult) (plan : QueryPlan)
    (protection : ProtectionMetadata) (adapterVersion : String) (result : NormalizedResult)
    (h : normalizeResult runtime raw plan protection adapterVersion = .ok result) :
    ∃ rows indexes, raw.rows.mapM (normalizeRow runtime raw.columns) = .ok rows ∧
      orderIndexes plan raw.columns = .ok indexes ∧
      Comparator (· ∈ rows) (fun left right => compareRows left.values right.values indexes) ∧
      OrderedAs raw.columns plan.val.deterministicOrder rows result.rows := by
  obtain ⟨rows, hrows, hordered⟩ := normalizeResult_eq_ok h
  have hfits := normalizeRows_fits hrows
  have heach : raw.rows.mapM (normalizeRow runtime raw.columns) = .ok rows := by
    unfold normalizeRows at hrows
    split at hrows
    · exact hrows
    · cases hrows
  refine ⟨rows, ?_⟩
  by_cases hnone : plan.val.deterministicOrder = []
  · rw [orderRows, if_pos hnone, Except.ok.injEq] at hordered
    refine ⟨[], heach, ?_, ?_, ?_⟩
    · rw [orderIndexes, hnone]
      rfl
    · exact ⟨fun _ _ _ _ => rfl, fun _ _ _ _ _ _ _ _ => Int.le_refl 0⟩
    · rw [hnone, hordered]
      exact ⟨.refl _, List.pairwise_of_forall fun _ _ h => h, fun _ _ => rfl⟩
  · rw [orderRows, if_neg hnone] at hordered
    obtain ⟨indexes, hindexes, hordered⟩ := except_bind_eq_ok.1 hordered
    obtain ⟨hterms, rfl⟩ := orderIndexes_eq_ok_iff.1 hindexes
    rw [← Except.ok.inj hordered]
    have hcmp := (rows_comparator hterms).comap (Q := fun row : NormalizedRow =>
      FitsColumns raw.columns row.values) (f := NormalizedRow.values) fun _ hrow => hrow
    refine ⟨_, heach, hindexes, hcmp.mono hfits, Comparator.sortBy_perm _ _, ?_, fun row hrow => ?_⟩
    · have hsorted := hcmp.sortBy_sorted hfits
      refine hsorted.imp_of_mem fun {a b} ha hb hle hbefore => ?_
      have hfitsA := hfits a ((Comparator.sortBy_perm _ _).mem_iff.1 ha)
      have hfitsB := hfits b ((Comparator.sortBy_perm _ _).mem_iff.1 hb)
      have hneg := (compareRows_neg_iff hterms hfitsB hfitsA).2 hbefore
      have hswap := hcmp.swap a b hfitsA hfitsB
      omega
    · have hstable := hcmp.sortBy_stable hfits (hfits row hrow)
      have hties (other : NormalizedRow) (hother : other ∈ rows) :=
        compareRows_eq_zero_iff hterms (hfits row hrow) (hfits other hother)
      rw [List.filter_congr fun other hother => decide_eq_decide.2 (hties other hother),
        List.filter_congr fun other hother => decide_eq_decide.2
          (hties other ((Comparator.sortBy_perm _ _).mem_iff.1 hother))] at hstable
      exact hstable

/-- Two results with the same rows, as `==` sees them, or two rejections. -/
def SameRows : Except NormalizationFailure NormalizedResult →
    Except NormalizationFailure NormalizedResult → Prop
  | .ok first, .ok second => first.rows.map (·.values) = second.rows.map (·.values)
  | .error _, .error _ => True
  | _, _ => False

instance : ∀ first second, Decidable (SameRows first second)
  | .ok _, .ok _ => inferInstanceAs (Decidable (_ = _))
  | .error _, .error _ => inferInstanceAs (Decidable True)
  | .ok _, .error _ => inferInstanceAs (Decidable False)
  | .error _, .ok _ => inferInstanceAs (Decidable False)

def TiesAgree (runtime : RelationalRuntime) (terms : List OrderTerm)
    (raw raw' : RawRelationalResult) : Prop :=
  (∀ term ∈ terms, term.val.column ∈ raw.columns.map (·.name)) →
  ∀ rows rows', normalizeRows runtime raw = .ok rows → normalizeRows runtime raw' = .ok rows' →
    ∀ row ∈ rows,
      (rows.filter fun other => TiesOn raw.columns terms row.values other.values).map (·.values) =
      (rows'.filter fun other => TiesOn raw.columns terms row.values other.values).map (·.values)

section Comparable

variable {runtime : RelationalRuntime} {plan : QueryPlan} {raw raw' : RawRelationalResult}

theorem normalizeRows_perm (hcolumns : raw.columns = raw'.columns) (hperm : raw.rows.Perm raw'.rows)
    {rows : List NormalizedRow} (h : normalizeRows runtime raw = .ok rows) :
    ∃ rows', normalizeRows runtime raw' = .ok rows' ∧ rows.Perm rows' := by
  unfold normalizeRows at h ⊢
  rw [← hcolumns]
  split at h
  · next hnames =>
    rw [if_pos hnames]
    rw [except_mapM_ok_iff] at h
    obtain ⟨rows', hrows', hsame⟩ := List.perm_comp_forall₂ hperm.symm h
    exact ⟨rows', except_mapM_ok_iff.2 hrows', hsame.symm⟩
  · cases h

theorem orderRows_same_iff (horder : plan.val.deterministicOrder ≠ [])
    {columns : List RelationalColumn}
    {rows rows' : List NormalizedRow} (hfits : ∀ row ∈ rows, FitsColumns columns row.values)
    (hperm : rows.Perm rows') :
    (∃ ordered ordered', orderRows plan columns rows = .ok ordered ∧
      orderRows plan columns rows' = .ok ordered' ∧
      (ordered.map (·.values) = ordered'.map (·.values) ↔ ∀ row ∈ rows,
        (rows.filter fun other => TiesOn columns plan.val.deterministicOrder row.values
          other.values).map (·.values) =
        (rows'.filter fun other => TiesOn columns plan.val.deterministicOrder row.values
          other.values).map (·.values))) ∨
    (∃ error error', orderRows plan columns rows = .error error ∧
      orderRows plan columns rows' = .error error' ∧
      ¬∀ term ∈ plan.val.deterministicOrder, term.val.column ∈ columns.map (·.name)) := by
  unfold orderRows
  rw [if_neg horder, if_neg horder]
  cases hindexes : orderIndexes plan columns with
  | error error =>
    refine Or.inr ⟨error, error, rfl, rfl, fun hterms => ?_⟩
    rw [orderIndexes_eq_ok_iff.2 ⟨hterms, rfl⟩] at hindexes
    cases hindexes
  | ok indexes =>
    obtain ⟨hterms, hmap⟩ := orderIndexes_eq_ok_iff.1 hindexes
    refine Or.inl ⟨_, _, rfl, rfl, ?_⟩
    have hcmp : Comparator (FitsColumns columns) fun left right => compareRows left right indexes :=
      hmap ▸ rows_comparator hterms
    have hvalues : ∀ values ∈ rows.map (·.values), FitsColumns columns values := by
      intro values hmem
      obtain ⟨row, hrow, rfl⟩ := List.mem_map.1 hmem
      exact hfits row hrow
    have hzero (row : NormalizedRow) (hrow : row ∈ rows) (values : List ScalarValue)
        (hmem : values ∈ rows.map (·.values)) : compareRows row.values values indexes = 0 ↔
          TiesOn columns plan.val.deterministicOrder row.values values :=
      hmap ▸ compareRows_eq_zero_iff hterms (hfits row hrow) (hvalues values hmem)
    have hsorted (l : List NormalizedRow) :
        (sortBy (fun left right => compareRows left.values right.values indexes) l).map (·.values) =
          sortBy (fun left right => compareRows left right indexes) (l.map (·.values)) :=
      Comparator.map_sortBy NormalizedRow.values (fun left right =>
        compareRows left right indexes) l
    rw [hsorted rows, hsorted rows', hcmp.sortBy_eq_iff hvalues (hperm.map _), List.forall_mem_map]
    refine forall₂_congr fun row hrow => ?_
    rw [List.filter_congr fun values hmem => decide_eq_decide.2 (hzero row hrow values hmem),
      List.filter_congr fun values hmem => decide_eq_decide.2
        (hzero row hrow values ((hperm.map _).mem_iff.2 hmem)),
      List.filter_map, List.filter_map]
    exact Iff.rfl

/-- Two results with the same rows are comparable exactly where the rows that tie come in one
order. -/
theorem comparable_rows (runtime : RelationalRuntime) (plan : QueryPlan)
    (raw raw' : RawRelationalResult) (protection protection' : ProtectionMetadata)
    (adapterVersion adapterVersion' : String) (horder : plan.val.deterministicOrder ≠ [])
    (hcolumns : raw.columns = raw'.columns) (hperm : raw.rows.Perm raw'.rows) :
    SameRows (normalizeResult runtime raw plan protection adapterVersion)
      (normalizeResult runtime raw' plan protection' adapterVersion') ↔
    TiesAgree runtime plan.val.deterministicOrder raw raw' := by
  unfold TiesAgree
  cases hrows : normalizeRows runtime raw with
  | error error =>
    have hrows' : ∃ error, normalizeRows runtime raw' = .error error := by
      cases hrows' : normalizeRows runtime raw' with
      | error error => exact ⟨error, rfl⟩
      | ok rows' =>
        obtain ⟨rows, hback, -⟩ := normalizeRows_perm hcolumns.symm hperm.symm hrows'
        rw [hrows] at hback
        cases hback
    obtain ⟨error', hrows'⟩ := hrows'
    have hresult : normalizeResult runtime raw plan protection adapterVersion = .error error := by
      rw [normalizeResult, hrows]
      rfl
    have hresult' : normalizeResult runtime raw' plan protection' adapterVersion' =
        .error error' := by
      rw [normalizeResult, hrows']
      rfl
    rw [hresult, hresult']
    exact iff_of_true trivial fun _ rows _ h => by cases h
  | ok rows =>
    obtain ⟨rows', hrows', hsame⟩ := normalizeRows_perm hcolumns hperm hrows
    have hfits := normalizeRows_fits hrows
    unfold normalizeResult
    rw [hrows, hrows', ← hcolumns]
    rcases orderRows_same_iff horder hfits hsame with
      ⟨ordered, ordered', hordered, hordered', hiff⟩ | ⟨error, error', herror, herror', habsent⟩
    · have hterms : ∀ term ∈ plan.val.deterministicOrder,
          term.val.column ∈ raw.columns.map (·.name) := by
        rw [orderRows, if_neg horder] at hordered
        obtain ⟨indexes, hindexes, -⟩ := except_bind_eq_ok.1 hordered
        exact (orderIndexes_eq_ok_iff.1 hindexes).1
      simp only [bind, Except.bind, hordered, hordered']
      refine Iff.trans hiff ⟨fun h _ others others' hothers hothers' => ?_, fun h => ?_⟩
      · cases hothers
        cases hothers'
        exact h
      · exact h hterms rows rows' rfl rfl
    · simp only [bind, Except.bind, herror, herror']
      exact iff_of_true trivial fun hterms => absurd hterms habsent

end Comparable

namespace Sample

def relational : RelationalRuntime where
  context := defaultContext
  decimalOf _ := .error (.raised (.other "InvalidOperation") "conversion syntax")

/-- A plan whose results are ordered by their identifiers. -/
def queryPlan : QueryPlan := ⟨{
  reference := ⟨⟨"customers", "1"⟩, by decide +kernel⟩
  operation := .node .select [] none
  parameterSchema := []
  requiredCapabilities := .none
  deterministicOrder := [⟨{ column := "id" }, by decide +kernel⟩]
  intrinsicallyOrdered := false
  maxRows := 10
  maxBytes := 1000
  authorizedDatasets := .none }, by decide +kernel⟩

def customers (rows : List (Int × String)) : RawRelationalResult where
  columns := [⟨"id", .integer, false⟩, ⟨"name", .string, true⟩]
  rows := rows.map fun row => [.int row.1, .str (CodeText.ofString row.2)]

def protection : ProtectionMetadata := ⟨"policy-1", "service", "tls", "encrypted"⟩

/-- The result of two customers in the order of the plan. -/
def orderedCustomers : NormalizedResult where
  columns := (customers []).columns
  rows := [[.int 1, .str (CodeText.ofString "a")], [.int 2, .str (CodeText.ofString "b")]]
  affectedRows := none
  transactionOutcome := none
  adapterVersion := "1"
  protection := protection

end Sample

theorem rows_ordered_sample : ∃ rows indexes,
    (Sample.customers [(2, "b"), (1, "a")]).rows.mapM
      (normalizeRow Sample.relational (Sample.customers []).columns) = .ok rows ∧
    orderIndexes Sample.queryPlan (Sample.customers []).columns = .ok indexes ∧
    Comparator (· ∈ rows) (fun left right => compareRows left.values right.values indexes) ∧
    OrderedAs (Sample.customers []).columns Sample.queryPlan.val.deterministicOrder rows
      Sample.orderedCustomers.rows :=
  rows_ordered Sample.relational (Sample.customers [(2, "b"), (1, "a")]) Sample.queryPlan
    Sample.protection "1" Sample.orderedCustomers rfl

theorem comparable_rows_sample : TiesAgree Sample.relational Sample.queryPlan.val.deterministicOrder
    (Sample.customers [(2, "b"), (1, "a")]) (Sample.customers [(1, "a"), (2, "b")]) :=
  (comparable_rows Sample.relational Sample.queryPlan (Sample.customers [(2, "b"), (1, "a")])
    (Sample.customers [(1, "a"), (2, "b")]) Sample.protection Sample.protection "1" "2"
    (List.cons_ne_nil _ _) rfl (List.Perm.swap _ _ _)).1 (by decide +kernel)

/-- Two customers under one identifier keep the order the adapter returned them in. -/
theorem tied_rows_differ : ¬∀ (runtime : RelationalRuntime) (plan : QueryPlan)
    (raw raw' : RawRelationalResult) (protection protection' : ProtectionMetadata)
    (adapterVersion adapterVersion' : String), plan.val.deterministicOrder ≠ [] →
    raw.columns = raw'.columns → raw.rows.Perm raw'.rows →
    SameRows (normalizeResult runtime raw plan protection adapterVersion)
      (normalizeResult runtime raw' plan protection' adapterVersion') := by
  intro h
  have hsame := h Sample.relational Sample.queryPlan (Sample.customers [(1, "a"), (1, "b")])
    (Sample.customers [(1, "b"), (1, "a")]) Sample.protection Sample.protection "1" "2"
    (List.cons_ne_nil _ _) rfl (List.Perm.swap _ _ _)
  exact absurd hsame (by decide +kernel)

end AiRetrieval
