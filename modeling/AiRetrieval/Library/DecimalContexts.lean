import Mathlib.Data.Nat.Log
import Mathlib.Algebra.Order.Field.Rat
import Mathlib.Algebra.Order.Field.Power
import Mathlib.Tactic.Linarith
import Mathlib.Tactic.Ring

/-! Decimal numbers, as coefficients with exponents, and what a context of limited precision
makes of them: rounding half to even, and the normal form without trailing zeros. -/

/-- A finite decimal number, with the sign of a zero and its trailing zeros. -/
structure DecimalNumber where
  negative : Bool
  coefficient : Nat
  exponent : Int
  deriving DecidableEq

/-- The coefficient times the power of ten. -/
def decimalMagnitude (c : Nat) (e : Int) : Rat := c * 10 ^ e

namespace DecimalNumber

def magnitude (d : DecimalNumber) : Rat := decimalMagnitude d.coefficient d.exponent

def value (d : DecimalNumber) : Rat := if d.negative then -d.magnitude else d.magnitude

end DecimalNumber

/-- How many digits a result may have, and the least and greatest exponent of its first one. -/
structure DecimalContext where
  precision : Nat
  emin : Int
  emax : Int
  positive : 0 < precision
  ordered : emin ≤ emax

namespace DecimalContext

/-- The least exponent a result can have. -/
def etiny (ctx : DecimalContext) : Int := ctx.emin - ctx.precision + 1

/-- The greatest exponent of a result with all its digits. -/
def etop (ctx : DecimalContext) : Int := ctx.emax - ctx.precision + 1

def halfEven (c q : Nat) : Nat :=
  if 2 * (c % q) < q ∨ 2 * (c % q) = q ∧ c / q % 2 = 0 then c / q else c / q + 1

/-- How many digits a coefficient has. -/
def digits (c : Nat) : Nat := Nat.log 10 c + 1

variable (ctx : DecimalContext)

/-- The least exponent at which a coefficient fits the precision. -/
def least (c : Nat) (e : Int) : Int := max (digits c + e - ctx.precision) ctx.etiny

/-- A number rounded to the context, unless it overflows. -/
def fix (c : Nat) (e : Int) : Option (Nat × Int) :=
  if c = 0 then some (0, min (max e ctx.etiny) ctx.emax)
  else if ctx.etop < digits c + e - ctx.precision then none
  else if e < ctx.least c e then
    let rounded := halfEven c (10 ^ (ctx.least c e - e).toNat)
    if 10 ^ ctx.precision ≤ rounded then
      if ctx.etop < ctx.least c e + 1 then none else some (rounded / 10, ctx.least c e + 1)
    else some (rounded, ctx.least c e)
  else some (c, e)

/-- Trailing zeros moved into the exponent, as far as it goes. -/
def strip (c : Nat) (e : Int) : Nat × Int :=
  if h : 0 < c ∧ c % 10 = 0 ∧ e < ctx.emax then strip (c / 10) (e + 1) else (c, e)
termination_by c
decreasing_by exact Nat.div_lt_self h.1 (by decide)

/-- Rounded to the context, then without trailing zeros; a zero has exponent zero. -/
def reduce (c : Nat) (e : Int) : Option (Nat × Int) :=
  (ctx.fix c e).map fun fixed => if fixed.1 = 0 then (0, 0) else ctx.strip fixed.1 fixed.2

/-- `normalize`: the sign stays, a zero's too. -/
def normalize (d : DecimalNumber) : Option DecimalNumber :=
  (ctx.reduce d.coefficient d.exponent).map fun reduced => ⟨d.negative, reduced.1, reduced.2⟩

/-- A magnitude some number of the context has. -/
def Holds (v : Rat) : Prop :=
  v < 10 ^ (ctx.emax + 1) ∧
    ∃ (c : Nat) (e : Int), c < 10 ^ ctx.precision ∧ ctx.etiny ≤ e ∧ v = decimalMagnitude c e

section Magnitudes

theorem decimalMagnitude_shift (c k : Nat) (e : Int) :
    decimalMagnitude (c * 10 ^ k) e = decimalMagnitude c (e + k) := by
  unfold decimalMagnitude
  rw [zpow_add₀ (by norm_num), zpow_natCast]
  push_cast
  ring

theorem decimalMagnitude_eq_zero {c : Nat} {e : Int} : decimalMagnitude c e = 0 ↔ c = 0 := by
  unfold decimalMagnitude
  rw [mul_eq_zero]
  constructor
  · rintro (h | h)
    · exact_mod_cast h
    · exact absurd h (zpow_ne_zero _ (by norm_num))
  · intro h
    exact Or.inl (by exact_mod_cast h)

theorem decimalMagnitude_nonneg (c : Nat) (e : Int) : 0 ≤ decimalMagnitude c e :=
  mul_nonneg (Nat.cast_nonneg c) (zpow_nonneg (by norm_num) e)

theorem coefficient_eq {c c' : Nat} {e : Int} {k : Nat}
    (h : decimalMagnitude c e = decimalMagnitude c' (e + k)) : c = c' * 10 ^ k := by
  rw [← decimalMagnitude_shift] at h
  unfold decimalMagnitude at h
  have hpow : (10 : Rat) ^ e ≠ 0 := zpow_ne_zero _ (by norm_num)
  exact_mod_cast mul_right_cancel₀ hpow h

theorem lt_pow_digits (c : Nat) : c < 10 ^ digits c := Nat.lt_pow_succ_log_self (by decide) c

theorem pow_le_of_ne_zero {c : Nat} (h : c ≠ 0) : 10 ^ (digits c - 1) ≤ c :=
  Nat.pow_log_le_self 10 h

/-- A magnitude is below the power of ten behind its digits. -/
theorem decimalMagnitude_lt {c n : Nat} (h : c < 10 ^ n) {e m : Int} (hm : n + e ≤ m) :
    decimalMagnitude c e < 10 ^ m := by
  have hlt : (c : Rat) < 10 ^ n := by exact_mod_cast h
  calc decimalMagnitude c e < 10 ^ n * 10 ^ e :=
        mul_lt_mul_of_pos_right hlt (zpow_pos (by norm_num) e)
    _ = 10 ^ ((n : Int) + e) := by rw [zpow_add₀ (by norm_num), zpow_natCast]
    _ ≤ 10 ^ m := zpow_le_zpow_right₀ (by norm_num) hm

theorem le_decimalMagnitude {c : Nat} (h : c ≠ 0) (e : Int) :
    10 ^ (digits c - 1 + e) ≤ decimalMagnitude c e := by
  unfold decimalMagnitude
  have hdigits : ((digits c : Int) - 1) = ((digits c - 1 : Nat) : Int) := by
    unfold digits
    omega
  rw [hdigits, zpow_add₀ (by norm_num), zpow_natCast]
  have hle : ((10 : Rat) ^ (digits c - 1)) ≤ c := by exact_mod_cast pow_le_of_ne_zero h
  exact mul_le_mul_of_nonneg_right hle (zpow_nonneg (by norm_num) e)

theorem digits_le_of_lt {c n : Nat} (hn : 0 < n) (h : c < 10 ^ n) : digits c ≤ n := by
  unfold digits
  have hlog := Nat.log_lt_of_lt_pow' (b := 10) hn.ne' h
  omega

theorem digits_mul_ten {c : Nat} (h : c ≠ 0) : digits (c * 10) = digits c + 1 := by
  unfold digits
  rw [Nat.log_mul_base (by decide) h]

end Magnitudes

section Rounding

theorem halfEven_le (c q : Nat) : halfEven c q ≤ c / q + 1 := by
  unfold halfEven
  split <;> omega

/-- Rounding does not see a common factor. -/
theorem halfEven_mul (c q : Nat) {m : Nat} (hm : 0 < m) : halfEven (c * m) (q * m) =
    halfEven c q := by
  unfold halfEven
  rw [Nat.mul_div_mul_right _ _ hm, Nat.mul_mod_mul_right]
  have hlt : 2 * (c % q * m) < q * m ↔ 2 * (c % q) < q := by
    rw [← Nat.mul_assoc]
    exact Nat.mul_lt_mul_right hm
  have heq : 2 * (c % q * m) = q * m ↔ 2 * (c % q) = q := by
    rw [← Nat.mul_assoc]
    exact Nat.mul_left_inj hm.ne'
  simp only [hlt, heq]

theorem halfEven_one (c : Nat) : halfEven c 1 = c := by
  unfold halfEven
  simp [Nat.mod_one]

end Rounding

section Reduced

variable {ctx}

theorem etiny_le_etop (ctx : DecimalContext) : ctx.etiny ≤ ctx.etop := by
  have h := ctx.ordered
  unfold etiny etop
  omega

/-- A number that is within the context is not rounded. -/
theorem fix_of_fits {c : Nat} {e : Int} (hc : c ≠ 0) (hlt : c < 10 ^ ctx.precision)
    (he : ctx.etiny ≤ e) (hmax : digits c + e - 1 ≤ ctx.emax) : ctx.fix c e = some (c, e) := by
  have hdigits := digits_le_of_lt ctx.positive hlt
  have htop : ¬ctx.etop < digits c + e - ctx.precision := by
    unfold etop
    omega
  have hleast : ¬e < ctx.least c e := by
    unfold least
    omega
  rw [fix, if_neg hc, if_neg htop, if_neg hleast]

theorem fix_fits {c c' : Nat} {e e' : Int} (hc : c ≠ 0) (h : ctx.fix c e = some (c', e')) :
    c' < 10 ^ ctx.precision ∧ ctx.etiny ≤ e' ∧
      decimalMagnitude c' e' < 10 ^ (ctx.emax + 1) := by
  have htiny := etiny_le_etop ctx
  have htop : ctx.etop + ctx.precision = ctx.emax + 1 := by
    unfold etop
    omega
  have hleast : ctx.least c e = max (digits c + e - ctx.precision) ctx.etiny := rfl
  rw [fix, if_neg hc] at h
  by_cases hover : ctx.etop < digits c + e - ctx.precision
  · rw [if_pos hover] at h
    cases h
  · rw [if_neg hover] at h
    by_cases hround : e < ctx.least c e
    · rw [if_pos hround] at h
      dsimp only at h
      by_cases hcarry : 10 ^ ctx.precision ≤ halfEven c (10 ^ (ctx.least c e - e).toNat)
      · rw [if_pos hcarry] at h
        by_cases hlast : ctx.etop < ctx.least c e + 1
        · rw [if_pos hlast] at h
          cases h
        · rw [if_neg hlast] at h
          cases h
          -- the coefficient was rounded up to the power of ten itself
          have hsmall : c < 10 ^ ctx.precision * 10 ^ (ctx.least c e - e).toNat := by
            rw [← pow_add]
            refine lt_of_lt_of_le (lt_pow_digits c) (Nat.pow_le_pow_right (by decide) ?_)
            omega
          have hquotient := Nat.div_lt_of_lt_mul (Nat.mul_comm _ _ ▸ hsmall)
          have hrounded := halfEven_le c (10 ^ (ctx.least c e - e).toNat)
          have hten : 0 < 10 ^ ctx.precision := Nat.pow_pos (by decide)
          have hlt : halfEven c (10 ^ (ctx.least c e - e).toNat) / 10 < 10 ^ ctx.precision := by
            omega
          exact ⟨hlt, by omega, decimalMagnitude_lt hlt (by omega)⟩
      · rw [if_neg hcarry] at h
        cases h
        have hlt := Nat.lt_of_not_le hcarry
        exact ⟨hlt, by omega, decimalMagnitude_lt hlt (by omega)⟩
    · rw [if_neg hround] at h
      cases h
      have hlt : c < 10 ^ ctx.precision :=
        lt_of_lt_of_le (lt_pow_digits c) (Nat.pow_le_pow_right (by decide) (by omega))
      exact ⟨hlt, by omega, decimalMagnitude_lt (lt_pow_digits c) (by omega)⟩

theorem strip_mul_ten {c : Nat} (hc : c ≠ 0) {e : Int} (he : e < ctx.emax) :
    ctx.strip (c * 10) e = ctx.strip c (e + 1) := by
  rw [strip, dif_pos ⟨by omega, by omega, he⟩, Nat.mul_div_cancel _ (by decide)]

/-- A trailing zero of the coefficient is a step of the exponent. -/
theorem reduce_mul_ten {c : Nat} (hc : c ≠ 0) (e : Int) :
    ctx.reduce (c * 10) e = ctx.reduce c (e + 1) := by
  have hten : c * 10 ≠ 0 := by omega
  have hdigits := digits_mul_ten hc
  have hleast : ctx.least (c * 10) e = ctx.least c (e + 1) := by
    unfold least
    rw [hdigits]
    push_cast
    congr 1
    ring
  have hmax : ctx.least c (e + 1) = max (digits c + (e + 1) - ctx.precision) ctx.etiny := rfl
  have hpos : 0 < digits c := by unfold digits; omega
  unfold reduce
  rw [fix, fix, if_neg hten, if_neg hc, hleast, hdigits]
  have hover : (ctx.etop < ((digits c + 1 : Nat) : Int) + e - ctx.precision) ↔
      ctx.etop < digits c + (e + 1) - ctx.precision := by omega
  by_cases htop : ctx.etop < digits c + (e + 1) - ctx.precision
  · rw [if_pos (hover.2 htop), if_pos htop]
  · rw [if_neg fun h => htop (hover.1 h), if_neg htop]
    by_cases hround : e + 1 < ctx.least c (e + 1)
    · -- both are rounded, one more digit of the longer one
      have hdrop : (ctx.least c (e + 1) - e).toNat = (ctx.least c (e + 1) - (e + 1)).toNat + 1 := by
        omega
      rw [if_pos hround, if_pos (by omega), hdrop, pow_succ, halfEven_mul _ _ (by decide)]
    · by_cases hlast : e < ctx.least c (e + 1)
      · -- only the longer one is rounded, by its zero
        have hsame : ctx.least c (e + 1) = e + 1 := by omega
        have hdrop : (ctx.least c (e + 1) - e).toNat = 1 := by omega
        have hlt : c < 10 ^ ctx.precision :=
          lt_of_lt_of_le (lt_pow_digits c) (Nat.pow_le_pow_right (by decide) (by omega))
        have hexact : halfEven (c * 10) 10 = c := by
          have hmul := halfEven_mul c 1 (show 0 < 10 by decide)
          rwa [Nat.one_mul, halfEven_one] at hmul
        rw [if_neg hround, if_pos hlast, hdrop, pow_one, hexact, if_neg (by omega), hsame]
      · rw [if_neg hround, if_neg hlast, Option.map_some, Option.map_some]
        dsimp only
        rw [if_neg hten, if_neg hc, strip_mul_ten hc (by unfold etop at htop; omega)]

theorem reduce_shift {c : Nat} (hc : c ≠ 0) (k : Nat) (e : Int) :
    ctx.reduce (c * 10 ^ k) e = ctx.reduce c (e + k) := by
  induction k generalizing e with
  | zero => simp
  | succ k ih =>
    have hne : c * 10 ^ k ≠ 0 := Nat.mul_ne_zero hc (Nat.pow_pos (by decide)).ne'
    rw [pow_succ, ← Nat.mul_assoc, reduce_mul_ten hne, ih]
    push_cast
    congr 1
    ring

theorem reduce_congr {c c' : Nat} {e e' : Int} (hc : c ≠ 0)
    (h : decimalMagnitude c e = decimalMagnitude c' e') : ctx.reduce c e = ctx.reduce c' e' := by
  have hc' : c' ≠ 0 := fun hzero => hc (by
    rw [← decimalMagnitude_eq_zero (e := e), h, hzero, decimalMagnitude_eq_zero])
  rcases Int.le_total e e' with hle | hle
  · obtain ⟨k, rfl⟩ := Int.le.dest hle
    rw [coefficient_eq h, reduce_shift hc']
  · obtain ⟨k, rfl⟩ := Int.le.dest hle
    rw [coefficient_eq h.symm, reduce_shift hc]

theorem strip_magnitude (c : Nat) (e : Int) :
    decimalMagnitude (ctx.strip c e).1 (ctx.strip c e).2 = decimalMagnitude c e := by
  fun_induction ctx.strip c e with
  | case1 c e h ih =>
    have hshift := decimalMagnitude_shift (c / 10) 1 e
    rw [pow_one, Nat.div_mul_cancel (Nat.dvd_of_mod_eq_zero h.2.1)] at hshift
    rw [ih, hshift]
    rfl
  | case2 c e h => rfl

theorem reduce_magnitude {c : Nat} {e : Int} {fixed : Nat × Int} (h : ctx.fix c e = some fixed) :
    ∃ reduced, ctx.reduce c e = some reduced ∧
      decimalMagnitude reduced.1 reduced.2 = decimalMagnitude fixed.1 fixed.2 := by
  refine ⟨_, by rw [reduce, h, Option.map_some], ?_⟩
  split
  · next hzero =>
    rw [hzero]
    exact (decimalMagnitude_eq_zero.2 rfl).trans (decimalMagnitude_eq_zero.2 rfl).symm
  · exact strip_magnitude _ _

theorem reduce_zero (e : Int) : ctx.reduce 0 e = some (0, 0) := by
  rw [reduce, fix, if_pos rfl]
  rfl

/-- The magnitude is kept exactly where the context holds it. -/
theorem reduce_exact_iff {c : Nat} {e : Int} :
    (∃ reduced, ctx.reduce c e = some reduced ∧
      decimalMagnitude reduced.1 reduced.2 = decimalMagnitude c e) ↔
    ctx.Holds (decimalMagnitude c e) := by
  by_cases hc : c = 0
  · subst hc
    have hzero (e : Int) : decimalMagnitude 0 e = 0 := decimalMagnitude_eq_zero.2 rfl
    refine iff_of_true ⟨(0, 0), reduce_zero e, by rw [hzero, hzero]⟩ ⟨?_, 0, ctx.etiny,
      ?_, le_rfl, ?_⟩
    · rw [hzero]
      exact zpow_pos (by norm_num) _
    · exact Nat.pow_pos (by decide)
    · rw [hzero, hzero]
  · constructor
    · rintro ⟨reduced, hreduce, hmagnitude⟩
      cases hfix : ctx.fix c e with
      | none => rw [reduce, hfix] at hreduce; cases hreduce
      | some fixed =>
        obtain ⟨other, hother, hkept⟩ := reduce_magnitude hfix
        rw [hother, Option.some.injEq] at hreduce
        subst hreduce
        obtain ⟨hlt, htiny, hmax⟩ := fix_fits hc hfix
        rw [← hmagnitude, hkept]
        exact ⟨hmax, fixed.1, fixed.2, hlt, htiny, rfl⟩
    · rintro ⟨hmax, c', e', hlt, htiny, hsame⟩
      have hc' : c' ≠ 0 := fun hzero => hc (by
        rw [← decimalMagnitude_eq_zero (e := e), hsame, hzero, decimalMagnitude_eq_zero])
      have hfirst := lt_of_le_of_lt (le_decimalMagnitude hc' e') (hsame ▸ hmax)
      rw [zpow_lt_zpow_iff_right₀ (by norm_num)] at hfirst
      have hfix := fix_of_fits hc' hlt htiny (by omega)
      obtain ⟨reduced, hreduce, hkept⟩ := reduce_magnitude hfix
      exact ⟨reduced, by rw [reduce_congr hc hsame, hreduce], by rw [hkept, hsame]⟩

end Reduced

section Normalized

variable {ctx}

theorem value_eq_iff (d : DecimalNumber) (c : Nat) (e : Int) :
    (DecimalNumber.mk d.negative c e).value = d.value ↔ decimalMagnitude c e = d.magnitude := by
  unfold DecimalNumber.value
  cases d.negative with
  | true => exact neg_inj
  | false => exact Iff.rfl

theorem normalize_exact_iff (d : DecimalNumber) :
    (∃ r, ctx.normalize d = some r ∧ r.value = d.value) ↔ ctx.Holds d.magnitude := by
  unfold normalize DecimalNumber.magnitude
  rw [← reduce_exact_iff]
  constructor
  · rintro ⟨r, hr, hvalue⟩
    obtain ⟨reduced, hreduce, rfl⟩ := Option.map_eq_some_iff.1 hr
    exact ⟨reduced, hreduce, (value_eq_iff d _ _).1 hvalue⟩
  · rintro ⟨reduced, hreduce, hkept⟩
    exact ⟨_, by rw [hreduce, Option.map_some], (value_eq_iff d _ _).2 hkept⟩

/-- Equal numbers have equal magnitudes, and equal signs unless they are zero. -/
theorem magnitude_of_value_eq {d d' : DecimalNumber} (h : d.value = d'.value) :
    d.magnitude = d'.magnitude ∧ (d.magnitude ≠ 0 → d.negative = d'.negative) := by
  have hd : 0 ≤ d.magnitude := decimalMagnitude_nonneg _ _
  have hd' : 0 ≤ d'.magnitude := decimalMagnitude_nonneg _ _
  unfold DecimalNumber.value at h
  by_cases hsign : d.negative = d'.negative
  · refine ⟨?_, fun _ => hsign⟩
    rw [hsign] at h
    cases hneg : d'.negative with
    | true => rw [hneg] at h; exact neg_inj.1 h
    | false => rw [hneg] at h; exact h
  · have hzero : d.magnitude = 0 ∧ d'.magnitude = 0 := by
      cases hneg : d.negative with
      | true =>
        have hneg' : d'.negative = false := by simpa [hneg] using hsign
        rw [hneg, hneg'] at h
        simp only [if_true, Bool.false_eq_true, if_false] at h
        constructor
        · linarith
        · linarith
      | false =>
        have hneg' : d'.negative = true := by simpa [hneg] using hsign
        rw [hneg, hneg'] at h
        simp only [if_true, Bool.false_eq_true, if_false] at h
        constructor
        · linarith
        · linarith
    exact ⟨hzero.1.trans hzero.2.symm, fun hne => absurd hzero.1 hne⟩

/-- Equal numbers have one normal form, save that a zero keeps its sign. -/
theorem normalize_congr_iff {d d' : DecimalNumber} (h : d.value = d'.value) :
    ctx.normalize d = ctx.normalize d' ↔ (d.magnitude = 0 → d.negative = d'.negative) := by
  obtain ⟨hmagnitude, hsign⟩ := magnitude_of_value_eq h
  by_cases hzero : d.magnitude = 0
  · have hc : d.coefficient = 0 := decimalMagnitude_eq_zero.1 hzero
    have hc' : d'.coefficient = 0 := decimalMagnitude_eq_zero.1 (hmagnitude ▸ hzero)
    have hforms : ctx.normalize d = some ⟨d.negative, 0, 0⟩ ∧
        ctx.normalize d' = some ⟨d'.negative, 0, 0⟩ := by
      unfold normalize
      rw [hc, hc', reduce_zero, reduce_zero]
      exact ⟨rfl, rfl⟩
    rw [hforms.1, hforms.2]
    simp [hzero]
  · have hc : d.coefficient ≠ 0 := fun hc => hzero (decimalMagnitude_eq_zero.2 hc)
    refine iff_of_true ?_ fun h => absurd h hzero
    unfold normalize
    rw [reduce_congr hc hmagnitude, hsign hzero]

end Normalized

end DecimalContext
