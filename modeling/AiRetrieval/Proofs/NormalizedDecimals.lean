import AiRetrieval.Proofs.OrderedResults

/-! What the normal form keeps of a decimal: its value, where the context has digits for it. -/

namespace AiRetrieval

open Normalization

/-- A cell of a decimal column that stands for a finite number. -/
def StandsFor (runtime : RelationalRuntime) (value : RelationalValue) (number : DecimalNumber) :
    Prop :=
  value ≠ .none ∧ asDecimal runtime value = .ok (.finite number)

/-- The cell normalizes to a decimal of the same value. -/
def KeepsValue (runtime : RelationalRuntime) (column : RelationalColumn) (value : RelationalValue)
    (number : DecimalNumber) : Prop :=
  ∃ normal, normalizeValue runtime value column = .ok (.decimal normal) ∧
    normal.value = number.value

theorem normalizeValue_decimal {runtime : RelationalRuntime} {column : RelationalColumn}
    (hcolumn : column.valueType = .decimal) {value : RelationalValue} {number : DecimalNumber}
    (h : StandsFor runtime value number) : normalizeValue runtime value column =
      match runtime.context.normalize number with
      | some normal => .ok (.decimal normal)
      | none => .error (.raised decimalOverflow) := by
  have hbranch : normalizeValue runtime value column = normalizeDecimal runtime value column := by
    obtain ⟨name, type, nullable⟩ := column
    dsimp only at hcolumn
    subst hcolumn
    cases value with
    | none => exact absurd rfl h.1
    | str | int | decimal | float | bool | date | datetime | bytes | bytearray | memoryview
      | object => rfl
  rewrite [hbranch, normalizeDecimal, h.2]
  rfl

/-- A number keeps its value exactly where the context holds it, and equal numbers have one
form, save that a zero keeps its sign. -/
theorem decimals_normalized (runtime : RelationalRuntime) (column : RelationalColumn)
    (hcolumn : column.valueType = .decimal) :
    (∀ value number, StandsFor runtime value number →
      (KeepsValue runtime column value number ↔ runtime.context.Holds number.magnitude)) ∧
    ∀ value value' number number', StandsFor runtime value number →
      StandsFor runtime value' number' → number.value = number'.value →
      (normalizeValue runtime value column = normalizeValue runtime value' column ↔
        (number.magnitude = 0 → number.negative = number'.negative)) := by
  constructor
  · intro value number hvalue
    rw [← DecimalContext.normalize_exact_iff, KeepsValue, normalizeValue_decimal hcolumn hvalue]
    cases runtime.context.normalize number with
    | none =>
      refine iff_of_false ?_ ?_
      · rintro ⟨_, h, -⟩
        cases h
      · rintro ⟨_, h, -⟩
        cases h
    | some normal =>
      constructor
      · rintro ⟨other, hother, hkept⟩
        cases hother
        exact ⟨normal, rfl, hkept⟩
      · rintro ⟨other, hother, hkept⟩
        cases hother
        exact ⟨normal, rfl, hkept⟩
  · intro value value' number number' hvalue hvalue' hsame
    rw [← DecimalContext.normalize_congr_iff hsame, normalizeValue_decimal hcolumn hvalue,
      normalizeValue_decimal hcolumn hvalue']
    cases hnormal : runtime.context.normalize number with
    | none =>
      cases hnormal' : runtime.context.normalize number' with
      | none => exact iff_of_true rfl rfl
      | some normal' => exact iff_of_false (fun h => by cases h) fun h => by cases h
    | some normal =>
      cases hnormal' : runtime.context.normalize number' with
      | none => exact iff_of_false (fun h => by cases h) fun h => by cases h
      | some normal' =>
        rw [Except.ok.injEq, Scalar.decimal.injEq, Option.some.injEq]

namespace Sample

def amount : RelationalColumn := ⟨"amount", .decimal, true⟩

def decimal (coefficient : Nat) (exponent : Int) : RelationalValue :=
  .decimal (.finite ⟨false, coefficient, exponent⟩)

theorem decimal_standsFor (coefficient : Nat) (exponent : Int) :
    StandsFor relational (decimal coefficient exponent) ⟨false, coefficient, exponent⟩ :=
  ⟨RelationalValue.noConfusion, rfl⟩

end Sample

theorem decimals_normalized_sample :
    KeepsValue Sample.relational Sample.amount (Sample.decimal 200 (-2)) ⟨false, 200, -2⟩ :=
  ((decimals_normalized Sample.relational Sample.amount rfl).1 _ _
    (Sample.decimal_standsFor 200 (-2))).2
    ⟨DecimalContext.decimalMagnitude_lt (show 200 < 10 ^ 3 by decide) (by decide), 200, -2,
      by decide, by decide, rfl⟩

/-- A number of 29 digits loses its last one. -/
theorem last_digit_lost : ¬∀ (runtime : RelationalRuntime) (column : RelationalColumn),
    column.valueType = .decimal →
    (∀ value number, StandsFor runtime value number → KeepsValue runtime column value number) ∧
    ∀ value value' number number', StandsFor runtime value number →
      StandsFor runtime value' number' → number.value = number'.value →
      normalizeValue runtime value column = normalizeValue runtime value' column := by
  intro h
  obtain ⟨normal, hnormal, hkept⟩ := (h Sample.relational Sample.amount rfl).1 _ _
    (Sample.decimal_standsFor 12345678901234567890123456789 0)
  have hrounded : Sample.relational.context.normalize ⟨false, 12345678901234567890123456789, 0⟩ =
      some ⟨false, 1234567890123456789012345679, 1⟩ := by decide +kernel
  rw [normalizeValue_decimal rfl (Sample.decimal_standsFor _ _), hrounded] at hnormal
  cases hnormal
  exact absurd hkept (by decide +kernel)

end AiRetrieval
