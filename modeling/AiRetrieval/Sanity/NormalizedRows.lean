import AiRetrieval.Spec.Normalization

/-! What normalization makes of cells and rows: every cell fits its column, so the rows of a
result are compared column by column as values of one type are. -/

namespace AiRetrieval

inductive ScalarValue.IsOf : NormalizedType → ScalarValue → Prop
  | str (value : CodeText) : IsOf .string (.str value)
  | int (value : Int) : IsOf .integer (.int value)
  | decimal (value : Rat) : IsOf .decimal (.decimal value)
  | bool (value : Bool) : IsOf .boolean (.bool value)
  | date (ordinal : Nat) : IsOf .date (.date ordinal)
  | datetime (instant : Int) : IsOf .datetime (.datetime instant)
  | bytes (value : Bytes) : IsOf .binary (.bytes value)

/-- A value that a cell of a column can have. -/
def ScalarValue.Fits (type : NormalizedType) (value : ScalarValue) : Prop :=
  value = .none ∨ IsOf type value

def FitsColumns (columns : List RelationalColumn) (row : List ScalarValue) : Prop :=
  List.Forall₂ (fun column value => ScalarValue.Fits column.valueType value) columns row

namespace Normalization

section Comparison

variable {type : NormalizedType} {a b c : ScalarValue}

theorem less_asymm (ha : ScalarValue.IsOf type a) (hb : ScalarValue.IsOf type b)
    (h : ScalarValue.less a b = true) : ScalarValue.less b a = false := by
  cases ha with
  | str a => cases hb with | str b =>
    simp only [ScalarValue.less, Bool.not_eq_true', Bool.not_eq_false', decide_eq_false_iff_not,
      decide_eq_true_eq] at h ⊢
    exact (List.le_total a b).resolve_right h
  | int a => cases hb with | int b =>
    simp only [ScalarValue.less, decide_eq_true_eq, decide_eq_false_iff_not] at h ⊢
    omega
  | decimal a => cases hb with | decimal b =>
    simp only [ScalarValue.less, decide_eq_true_eq, decide_eq_false_iff_not] at h ⊢
    exact not_lt_of_gt h
  | bool a => cases hb with | bool b => revert h; cases a <;> cases b <;> decide
  | date a => cases hb with | date b =>
    simp only [ScalarValue.less, decide_eq_true_eq, decide_eq_false_iff_not] at h ⊢
    omega
  | datetime a => cases hb with | datetime b =>
    simp only [ScalarValue.less, decide_eq_true_eq, decide_eq_false_iff_not] at h ⊢
    omega
  | bytes a => cases hb with | bytes b =>
    simp only [ScalarValue.less, Bool.not_eq_true', Bool.not_eq_false', decide_eq_false_iff_not,
      decide_eq_true_eq] at h ⊢
    exact (List.le_total a b).resolve_right h

/-- Not being less passes on. -/
theorem not_less_trans (ha : ScalarValue.IsOf type a) (hb : ScalarValue.IsOf type b)
    (hc : ScalarValue.IsOf type c) (hab : ScalarValue.less b a = false)
    (hbc : ScalarValue.less c b = false) : ScalarValue.less c a = false := by
  cases ha with
  | str a => cases hb with | str b => cases hc with | str c =>
    simp only [ScalarValue.less, Bool.not_eq_false', decide_eq_true_eq] at hab hbc ⊢
    exact List.le_trans hab hbc
  | int a => cases hb with | int b => cases hc with | int c =>
    simp only [ScalarValue.less, decide_eq_false_iff_not] at hab hbc ⊢
    omega
  | decimal a => cases hb with | decimal b => cases hc with | decimal c =>
    simp only [ScalarValue.less, decide_eq_false_iff_not, not_lt] at hab hbc ⊢
    exact le_trans hab hbc
  | bool a => cases hb with | bool b => cases hc with | bool c =>
    revert hab hbc
    cases a <;> cases b <;> cases c <;> decide
  | date a => cases hb with | date b => cases hc with | date c =>
    simp only [ScalarValue.less, decide_eq_false_iff_not] at hab hbc ⊢
    omega
  | datetime a => cases hb with | datetime b => cases hc with | datetime c =>
    simp only [ScalarValue.less, decide_eq_false_iff_not] at hab hbc ⊢
    omega
  | bytes a => cases hb with | bytes b => cases hc with | bytes c =>
    simp only [ScalarValue.less, Bool.not_eq_false', decide_eq_true_eq] at hab hbc ⊢
    exact List.le_trans hab hbc

/-- Values of one type that are neither less nor greater are equal. -/
theorem eq_of_not_less (ha : ScalarValue.IsOf type a) (hb : ScalarValue.IsOf type b)
    (hab : ScalarValue.less a b = false) (hba : ScalarValue.less b a = false) : a = b := by
  cases ha with
  | str a => cases hb with | str b =>
    simp only [ScalarValue.less, Bool.not_eq_false', decide_eq_true_eq] at hab hba
    rw [List.le_antisymm hba hab]
  | int a => cases hb with | int b =>
    simp only [ScalarValue.less, decide_eq_false_iff_not] at hab hba
    rw [show a = b by omega]
  | decimal a => cases hb with | decimal b =>
    simp only [ScalarValue.less, decide_eq_false_iff_not, not_lt] at hab hba
    rw [le_antisymm hba hab]
  | bool a => cases hb with | bool b => revert hab hba; cases a <;> cases b <;> decide
  | date a => cases hb with | date b =>
    simp only [ScalarValue.less, decide_eq_false_iff_not] at hab hba
    rw [show a = b by omega]
  | datetime a => cases hb with | datetime b =>
    simp only [ScalarValue.less, decide_eq_false_iff_not] at hab hba
    rw [show a = b by omega]
  | bytes a => cases hb with | bytes b =>
    simp only [ScalarValue.less, Bool.not_eq_false', decide_eq_true_eq] at hab hba
    rw [List.le_antisymm hba hab]

theorem values_comparator (type : NormalizedType) : Comparator (ScalarValue.IsOf type)
    fun a b => threeWay (ScalarValue.less b a) (ScalarValue.less a b) :=
  .of_less (fun _ _ ha hb => less_asymm ha hb) fun _ _ _ ha hb hc => not_less_trans ha hb hc

theorem ne_none (ha : ScalarValue.IsOf type a) : a ≠ .none := by
  rintro rfl
  cases ha

variable (term : OrderTerm)

/-- Where a term puts `None` against a value: behind it or before it. -/
def nullSign : Int := if term.val.nulls = .last then 1 else -1

@[simp] theorem compareCells_none : compareCells term .none .none = 0 := by
  simp [compareCells]

theorem compareCells_none_left (hb : b ≠ .none) : compareCells term .none b = nullSign term := by
  simp only [compareCells, hb, nullSign, true_or, if_true, and_false, if_false]
  split <;> rfl

theorem compareCells_none_right (ha : a ≠ .none) : compareCells term a .none = -nullSign term := by
  simp only [compareCells, ha, nullSign, or_true, if_true, false_and, if_false]
  split <;> rfl

theorem compareCells_values (ha : a ≠ .none) (hb : b ≠ .none) : compareCells term a b =
    if term.val.direction = .descending then
      -threeWay (ScalarValue.less b a) (ScalarValue.less a b)
    else threeWay (ScalarValue.less b a) (ScalarValue.less a b) := by
  simp only [compareCells, ha, hb, or_self, if_false]

theorem nullSign_cases : nullSign term = 1 ∨ nullSign term = -1 := by
  unfold nullSign
  split
  · exact Or.inl rfl
  · exact Or.inr rfl

theorem compareValues_comparator (type : NormalizedType) :
    Comparator (ScalarValue.IsOf type) (compareCells term) := by
  have hvalues := values_comparator type
  by_cases hdescending : term.val.direction = .descending
  · have hneg := hvalues.neg
    refine ⟨fun a b ha hb => ?_, fun a b c ha hb hc => ?_⟩
    · rw [compareCells_values term (ne_none hb) (ne_none ha),
        compareCells_values term (ne_none ha) (ne_none hb), if_pos hdescending, if_pos hdescending]
      exact hneg.swap a b ha hb
    · rw [compareCells_values term (ne_none ha) (ne_none hb),
        compareCells_values term (ne_none hb) (ne_none hc),
        compareCells_values term (ne_none ha) (ne_none hc), if_pos hdescending,
        if_pos hdescending, if_pos hdescending]
      exact hneg.trans a b c ha hb hc
  · refine ⟨fun a b ha hb => ?_, fun a b c ha hb hc => ?_⟩
    · rw [compareCells_values term (ne_none hb) (ne_none ha),
        compareCells_values term (ne_none ha) (ne_none hb), if_neg hdescending, if_neg hdescending]
      exact hvalues.swap a b ha hb
    · rw [compareCells_values term (ne_none ha) (ne_none hb),
        compareCells_values term (ne_none hb) (ne_none hc),
        compareCells_values term (ne_none ha) (ne_none hc), if_neg hdescending,
        if_neg hdescending, if_neg hdescending]
      exact hvalues.trans a b c ha hb hc

/-- A term orders the cells of a column, `None` among them. -/
theorem cells_comparator (type : NormalizedType) :
    Comparator (ScalarValue.Fits type) (compareCells term) := by
  have hvalues := compareValues_comparator term type
  have hsign := nullSign_cases term
  refine ⟨fun a b ha hb => ?_, fun a b c ha hb hc hab hbc => ?_⟩
  · rcases ha with rfl | ha
    · rcases hb with rfl | hb
      · rw [compareCells_none]; rfl
      · rw [compareCells_none_right term (ne_none hb), compareCells_none_left term (ne_none hb)]
    · rcases hb with rfl | hb
      · rw [compareCells_none_left term (ne_none ha), compareCells_none_right term (ne_none ha)]
        omega
      · exact hvalues.swap a b ha hb
  · rcases hb with rfl | hb
    · -- `None` in the middle: the ends are `None` too, or on its two sides
      rcases ha with rfl | ha
      · exact hbc
      · rcases hc with rfl | hc
        · exact hab
        · rw [compareCells_none_right term (ne_none ha)] at hab
          rw [compareCells_none_left term (ne_none hc)] at hbc
          omega
    · rcases ha with rfl | ha
      · rw [compareCells_none_left term (ne_none hb)] at hab
        rcases hc with rfl | hc
        · rw [compareCells_none]
        · rwa [compareCells_none_left term (ne_none hc)]
      · rcases hc with rfl | hc
        · rw [compareCells_none_right term (ne_none hb)] at hbc
          rwa [compareCells_none_right term (ne_none ha)]
        · exact hvalues.trans a b c ha hb hc hab hbc

end Comparison

section Fitting

variable {runtime : RelationalRuntime}

theorem normalizeValue_fits {value : RelationalValue} {column : RelationalColumn}
    {cell : NormalizedScalar} (h : normalizeValue runtime value column = .ok cell) :
    ScalarValue.Fits column.valueType cell.value := by
  unfold normalizeValue at h
  split at h
  · split at h
    · cases h
      exact Or.inl rfl
    · cases h
  · next heq => cases h; rw [heq]; exact Or.inr (.str _)
  · next heq => cases h; rw [heq]; exact Or.inr (.int _)
  · next heq _ =>
    rw [heq]
    unfold normalizeDecimal at h
    split at h
    · split at h
      · cases h
      · cases h
    · split at h
      · cases h
        exact Or.inr (.decimal _)
      · cases h
    · cases h
  · next heq => cases h; rw [heq]; exact Or.inr (.bool _)
  · next heq => cases h; rw [heq]; exact Or.inr (.date _)
  · next heq =>
    rw [heq]
    unfold normalizeDateTime at h
    split at h
    · cases h
    · split at h
      · cases h
        exact Or.inr (.datetime _)
      · cases h
  · next heq => cases h; rw [heq]; exact Or.inr (.bytes _)
  · next heq => cases h; rw [heq]; exact Or.inr (.bytes _)
  · next heq => cases h; rw [heq]; exact Or.inr (.bytes _)
  · cases h

theorem normalizeRow_fits {columns : List RelationalColumn} {row : List RelationalValue}
    {normal : NormalizedRow} (h : normalizeRow runtime columns row = .ok normal) :
    FitsColumns columns normal.values := by
  unfold normalizeRow at h
  split at h
  · cases h
  · next hlength =>
    rw [ne_eq, not_not] at hlength
    rw [except_mapM_ok_iff] at h
    unfold FitsColumns NormalizedRow.values
    rw [List.forall₂_map_right_iff]
    induction columns generalizing row normal with
    | nil =>
      rw [List.zip_nil_right] at h
      cases h
      exact .nil
    | cons column columns ih =>
      cases row with
      | nil => cases hlength
      | cons value row =>
        rw [List.zip_cons_cons] at h
        cases h with
        | cons hvalue hrest =>
          exact .cons (normalizeValue_fits hvalue) (ih (Nat.succ.inj hlength) hrest)

theorem normalizeRows_fits {raw : RawRelationalResult} {rows : List NormalizedRow}
    (h : normalizeRows runtime raw = .ok rows) :
    ∀ row ∈ rows, FitsColumns raw.columns row.values := by
  unfold normalizeRows at h
  split at h
  · rw [except_mapM_ok_iff] at h
    intro row hrow
    obtain ⟨raw, hraw⟩ := exists_of_forall₂ h.flip row hrow
    exact normalizeRow_fits hraw
  · cases h

end Fitting

def cellOf (columns : List RelationalColumn) (row : List ScalarValue) (term : OrderTerm) :
    ScalarValue :=
  row.getD ((columns.map (·.name)).idxOf term.val.column) .none

section Rows

variable {columns : List RelationalColumn} {terms : List OrderTerm}

theorem cell_fits {row : List ScalarValue} (h : FitsColumns columns row) {index : Nat}
    (hindex : index < columns.length) :
    ScalarValue.Fits columns[index].valueType (row.getD index .none) := by
  induction h generalizing index with
  | nil => exact absurd hindex (by simp)
  | cons hfirst _ ih =>
    cases index with
    | zero => exact hfirst
    | succ index => exact ih (Nat.lt_of_succ_lt_succ hindex)

theorem orderIndexes_eq_ok_iff {plan : QueryPlan} {indexes : List (Nat × OrderTerm)} :
    orderIndexes plan columns = .ok indexes ↔
      (∀ term ∈ plan.val.deterministicOrder, term.val.column ∈ columns.map (·.name)) ∧
      indexes = plan.val.deterministicOrder.map fun term =>
        ((columns.map (·.name)).idxOf term.val.column, term) := by
  unfold orderIndexes
  generalize plan.val.deterministicOrder = terms
  constructor
  · intro h
    have hmem : ∀ term ∈ terms, term.val.column ∈ columns.map (·.name) := by
      intro term hterm
      obtain ⟨pair, hpair⟩ := except_mapM_returns_iff.1 ⟨indexes, h⟩ term hterm
      by_contra hnot
      rw [if_neg hnot] at hpair
      cases hpair
    rw [except_mapM_eq_ok fun term hterm => if_pos (hmem term hterm), Except.ok.injEq] at h
    exact ⟨hmem, h.symm⟩
  · rintro ⟨hmem, rfl⟩
    exact except_mapM_eq_ok fun term hterm => if_pos (hmem term hterm)

theorem compareRows_eq (left right : List ScalarValue) :
    compareRows left right (terms.map fun term =>
      ((columns.map (·.name)).idxOf term.val.column, term)) =
    inOrder (terms.map fun term left right =>
      compareCells term (cellOf columns left term) (cellOf columns right term)) left right := by
  induction terms with
  | nil => rfl
  | cons term rest ih =>
    rw [List.map_cons, List.map_cons, compareRows, inOrder, ih]
    rfl

/-- The rows of a result are ordered by the terms of the plan. -/
theorem rows_comparator
    (hterms : ∀ term ∈ terms, term.val.column ∈ columns.map (·.name)) :
    Comparator (FitsColumns columns) fun left right => compareRows left right
      (terms.map fun term => ((columns.map (·.name)).idxOf term.val.column, term)) := by
  have heach : Comparator (FitsColumns columns) (inOrder (terms.map fun term left right =>
      compareCells term (cellOf columns left term) (cellOf columns right term))) := by
    refine .ofEach fun cmp hcmp => ?_
    obtain ⟨term, hterm, rfl⟩ := List.mem_map.1 hcmp
    have hindex := List.idxOf_lt_length_of_mem (hterms term hterm)
    rw [List.length_map] at hindex
    exact (cells_comparator term _).comap fun row hrow => cell_fits hrow hindex
  refine ⟨fun a b ha hb => ?_, fun a b c ha hb hc => ?_⟩
  · rw [compareRows_eq, compareRows_eq]
    exact heach.swap a b ha hb
  · rw [compareRows_eq, compareRows_eq, compareRows_eq]
    exact heach.trans a b c ha hb hc

/-- Two rows have one value in the column of every term. -/
def TiesOn (columns : List RelationalColumn) (terms : List OrderTerm)
    (left right : List ScalarValue) : Prop :=
  ∀ term ∈ terms, cellOf columns left term = cellOf columns right term

instance (columns : List RelationalColumn) (terms : List OrderTerm)
    (left right : List ScalarValue) : Decidable (TiesOn columns terms left right) :=
  inferInstanceAs (Decidable (∀ term ∈ terms, _))

theorem compareCells_eq_zero_iff {type : NormalizedType} {term : OrderTerm} {a b : ScalarValue}
    (ha : ScalarValue.Fits type a) (hb : ScalarValue.Fits type b) :
    compareCells term a b = 0 ↔ a = b := by
  have hsign := nullSign_cases term
  constructor
  · intro h
    rcases ha with rfl | ha
    · rcases hb with rfl | hb
      · rfl
      · rw [compareCells_none_left term (ne_none hb)] at h
        omega
    · rcases hb with rfl | hb
      · rw [compareCells_none_right term (ne_none ha)] at h
        omega
      · rw [compareCells_values term (ne_none ha) (ne_none hb)] at h
        have hzero : threeWay (ScalarValue.less b a) (ScalarValue.less a b) = 0 := by
          split at h <;> omega
        have hasymm := less_asymm ha hb
        unfold threeWay at hzero
        cases hless : ScalarValue.less a b with
        | true =>
          rw [hless, hasymm hless] at hzero
          cases hzero
        | false =>
          cases hless' : ScalarValue.less b a with
          | true =>
            rw [hless, hless'] at hzero
            cases hzero
          | false => exact eq_of_not_less ha hb hless hless'
  · rintro rfl
    exact (cells_comparator term type).refl ha

theorem compareRows_eq_zero_iff
    (hterms : ∀ term ∈ terms, term.val.column ∈ columns.map (·.name))
    {left right : List ScalarValue} (hleft : FitsColumns columns left)
    (hright : FitsColumns columns right) :
    compareRows left right (terms.map fun term =>
      ((columns.map (·.name)).idxOf term.val.column, term)) = 0 ↔
        TiesOn columns terms left right := by
  rw [compareRows_eq]
  induction terms with
  | nil => exact iff_of_true rfl fun term h => by cases h
  | cons term rest ih =>
    rw [List.forall_mem_cons] at hterms
    have hindex := List.idxOf_lt_length_of_mem hterms.1
    rw [List.length_map] at hindex
    have hcell : compareCells term _ _ = 0 ↔ _ :=
      compareCells_eq_zero_iff (cell_fits hleft hindex) (cell_fits hright hindex)
    unfold TiesOn
    rw [List.map_cons, inOrder, List.forall_mem_cons]
    by_cases hzero : compareCells term (cellOf columns left term) (cellOf columns right term) = 0
    · rw [if_neg (fun h => h hzero)]
      exact (ih hterms.2).trans (iff_and_self.2 fun _ => hcell.1 hzero)
    · rw [if_pos hzero]
      exact iff_of_false hzero fun h => hzero (hcell.2 h.1)

end Rows

end Normalization

end AiRetrieval
