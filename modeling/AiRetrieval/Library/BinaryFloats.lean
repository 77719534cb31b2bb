import Mathlib.Data.Int.Log
import Mathlib.Data.Rat.Floor
import Mathlib.Tactic.Linarith
import Mathlib.Tactic.Positivity
import Mathlib.Tactic.FieldSimp
import Mathlib.Tactic.Ring

/-! Rounding to binary floating point: the nearest number with `f` bits after the leading one
of its significand, a tie going to the even significand. The exponent has no bounds, so this is
the rounding of a format on the numbers between its smallest normal and its greatest number. -/

namespace BinaryFloat

/-- The nearest integer; a half goes to the even one. -/
def roundHalfEven (x : ℚ) : ℤ :=
  if x - ⌊x⌋ < 1 / 2 ∨ x - ⌊x⌋ = 1 / 2 ∧ Even ⌊x⌋ then ⌊x⌋ else ⌊x⌋ + 1

/-- The last place of the numbers around `a`. -/
def ulp (f : ℕ) (a : ℚ) : ℚ := (2 : ℚ) ^ (Int.log 2 a - f)

/-- The rounded value of a number that is not negative. -/
def magnitude (f : ℕ) (a : ℚ) : ℚ := roundHalfEven (a / ulp f a) * ulp f a

def round (f : ℕ) (x : ℚ) : ℚ := if x < 0 then -magnitude f (-x) else magnitude f x

section Integers

theorem roundHalfEven_intCast (n : ℤ) : roundHalfEven n = n := by
  simp [roundHalfEven]

theorem abs_roundHalfEven_sub_le (x : ℚ) : |(roundHalfEven x : ℚ) - x| ≤ 1 / 2 := by
  have hlow := Int.floor_le x
  have hhigh := Int.lt_floor_add_one x
  unfold roundHalfEven
  split
  · next h =>
    rw [abs_le]
    rcases h with h | ⟨h, -⟩ <;> constructor <;> linarith
  · next h =>
    rw [not_or, not_lt] at h
    rw [abs_le]
    push_cast
    constructor <;> linarith [h.1]

theorem floor_le_roundHalfEven (x : ℚ) : ⌊x⌋ ≤ roundHalfEven x := by
  unfold roundHalfEven
  split <;> omega

theorem roundHalfEven_le_floor_add_one (x : ℚ) : roundHalfEven x ≤ ⌊x⌋ + 1 := by
  unfold roundHalfEven
  split <;> omega

theorem roundHalfEven_mono {x y : ℚ} (hxy : x ≤ y) : roundHalfEven x ≤ roundHalfEven y := by
  rcases (Int.floor_le_floor hxy).lt_or_eq with hlt | heq
  · have h := roundHalfEven_le_floor_add_one x
    have h' := floor_le_roundHalfEven y
    omega
  · -- both fractions are of one floor
    unfold roundHalfEven
    rw [heq]
    split
    · split <;> omega
    · next hx =>
      rw [if_neg]
      rintro (hy | ⟨hy, heven⟩)
      · exact hx (.inl ((sub_le_sub_right hxy _).trans_lt hy))
      · rcases hxy.lt_or_eq with hlt | rfl
        · exact hx (.inl ((sub_lt_sub_right hlt _).trans_eq hy))
        · exact hx (.inr ⟨hy, heven⟩)

/-- An even shift keeps the parity that decides a tie. -/
theorem roundHalfEven_sub_even (x : ℚ) {n : ℤ} (hn : Even n) :
    roundHalfEven (x - n) = roundHalfEven x - n := by
  have hparity : Even (⌊x⌋ - n) ↔ Even ⌊x⌋ := by
    rw [Int.even_sub]
    exact ⟨fun h => h.2 hn, fun h => ⟨fun _ => hn, fun _ => h⟩⟩
  have hfraction : x - n - ((⌊x⌋ - n : ℤ) : ℚ) = x - ⌊x⌋ := by
    push_cast
    ring
  unfold roundHalfEven
  rw [Int.floor_sub_intCast]
  simp only [hparity, hfraction]
  split <;> omega

end Integers

section Magnitudes

variable {f : ℕ} {a b : ℚ} {e : ℤ}

theorem ulp_pos (f : ℕ) (a : ℚ) : 0 < ulp f a := zpow_pos (by norm_num) _

theorem magnitude_zero (f : ℕ) : magnitude f 0 = 0 := by
  unfold magnitude
  rw [zero_div, ← Int.cast_zero, roundHalfEven_intCast, Int.cast_zero, zero_mul]

theorem abs_magnitude_sub_le (f : ℕ) (a : ℚ) : |magnitude f a - a| ≤ ulp f a / 2 := by
  have hulp := ulp_pos f a
  have hscaled : magnitude f a - a = (roundHalfEven (a / ulp f a) - a / ulp f a) * ulp f a := by
    unfold magnitude
    rw [sub_mul, div_mul_cancel₀ _ hulp.ne']
  rw [hscaled, abs_mul, abs_of_pos hulp]
  calc |(roundHalfEven (a / ulp f a) : ℚ) - a / ulp f a| * ulp f a
      ≤ 1 / 2 * ulp f a := mul_le_mul_of_nonneg_right (abs_roundHalfEven_sub_le _) hulp.le
    _ = ulp f a / 2 := by ring

theorem zpow_eq_places (f : ℕ) (e : ℤ) : (2 : ℚ) ^ e = ((2 ^ f : ℤ) : ℚ) * 2 ^ (e - f) := by
  push_cast
  rw [← zpow_natCast, ← zpow_add₀ (by norm_num)]
  congr 1
  omega

theorem log_eq_of_binade (hlow : (2 : ℚ) ^ e ≤ a) (hhigh : a < 2 ^ (e + 1)) : Int.log 2 a = e := by
  have hpos : 0 < a := lt_of_lt_of_le (zpow_pos (by norm_num) e) hlow
  have h := (Int.zpow_le_iff_le_log (b := 2) (by norm_num) hpos).1 (by exact_mod_cast hlow)
  have h' := (Int.lt_zpow_iff_log_lt (b := 2) (by norm_num) hpos).1 (by exact_mod_cast hhigh)
  omega

theorem places_le_zpow {m : ℕ} (hm : m ≤ 2 ^ (f + 1)) (e : ℤ) :
    (m : ℚ) * 2 ^ (e - f) ≤ 2 ^ (e + 1) := by
  have hexponent : e + 1 - ((f + 1 : ℕ) : ℤ) = e - f := by
    push_cast
    ring
  rw [zpow_eq_places (f + 1) (e + 1), hexponent]
  exact mul_le_mul_of_nonneg_right (by exact_mod_cast hm) (zpow_pos (by norm_num) _).le

/-- A whole number of places that fits the significand is its own rounding. -/
theorem magnitude_of_places {m : ℕ} (hm : m ≤ 2 ^ (f + 1)) (e : ℤ) :
    magnitude f (m * 2 ^ (e - f)) = m * 2 ^ (e - f) := by
  rcases Nat.eq_zero_or_pos m with rfl | hpos
  · rw [Nat.cast_zero, zero_mul, magnitude_zero]
  have hle := places_le_zpow hm e
  have hpos' : (0 : ℚ) < m * 2 ^ (e - f) :=
    mul_pos (by exact_mod_cast hpos) (zpow_pos (by norm_num) _)
  generalize hx : (m : ℚ) * 2 ^ (e - f) = x at hle hpos' ⊢
  have hlog : Int.log 2 x ≤ e + 1 := by
    have hpower : Int.log 2 ((2 : ℚ) ^ (e + 1)) = e + 1 := by
      exact_mod_cast Int.log_zpow (R := ℚ) (b := 2) (by norm_num) (e + 1)
    exact hpower ▸ Int.log_mono_right (b := 2) hpos' hle
  -- the quotient by the last place of `x` is whole
  have hwhole : ∃ n : ℤ, x / ulp f x = n := by
    unfold ulp
    rcases hlog.lt_or_eq with hlt | heq
    · refine ⟨m * 2 ^ (e - Int.log 2 x).toNat, ?_⟩
      rw [div_eq_iff (zpow_pos (by norm_num) _).ne']
      conv_lhs => rw [← hx]
      push_cast
      rw [mul_assoc, ← zpow_natCast, ← zpow_add₀ (by norm_num)]
      congr 2
      omega
    · refine ⟨2 ^ f, ?_⟩
      have hge := Int.zpow_log_le_self (b := 2) (by norm_num) hpos'
      rw [heq] at hge
      have hfull : x = 2 ^ (e + 1) := le_antisymm hle (by exact_mod_cast hge)
      rw [div_eq_iff (zpow_pos (by norm_num) _).ne', heq, hfull]
      exact zpow_eq_places f (e + 1)
  obtain ⟨n, hn⟩ := hwhole
  unfold magnitude
  rw [hn, roundHalfEven_intCast, ← hn, div_mul_cancel₀ _ (ulp_pos f x).ne']

theorem magnitude_nonneg (f : ℕ) (ha : 0 ≤ a) : 0 ≤ magnitude f a := by
  have hfloor := Int.floor_nonneg.2 (div_nonneg ha (ulp_pos f a).le)
  have hround := hfloor.trans (floor_le_roundHalfEven (a / ulp f a))
  exact mul_nonneg (by exact_mod_cast hround) (ulp_pos f a).le

/-- A rounding is a whole number of places that fits the significand. -/
theorem magnitude_places (ha : 0 < a) : ∃ m : ℕ, m ≤ 2 ^ (f + 1) ∧
    magnitude f a = m * 2 ^ (Int.log 2 a - f) := by
  have hplace := ulp_pos f a
  have hquotient : a / ulp f a ≤ ((2 ^ (f + 1) : ℕ) : ℤ) := by
    have hlt := Int.lt_zpow_succ_log_self (b := 2) (by norm_num) a
    rw [div_le_iff₀ hplace]
    refine (le_of_lt (by exact_mod_cast hlt)).trans (zpow_eq_places (f + 1) _).le |>.trans_eq ?_
    unfold ulp
    push_cast
    congr 2
    ring
  have hmono := roundHalfEven_mono hquotient
  rw [roundHalfEven_intCast] at hmono
  have hnonneg := (Int.floor_nonneg.2 (div_nonneg ha.le hplace.le)).trans
    (floor_le_roundHalfEven (a / ulp f a))
  refine ⟨(roundHalfEven (a / ulp f a)).toNat, by omega, ?_⟩
  have hcast : (((roundHalfEven (a / ulp f a)).toNat : ℤ) : ℚ) = roundHalfEven (a / ulp f a) := by
    rw [Int.toNat_of_nonneg hnonneg]
  rw [← Int.cast_natCast, hcast]
  rfl

theorem magnitude_magnitude (f : ℕ) (ha : 0 ≤ a) : magnitude f (magnitude f a) = magnitude f a := by
  rcases ha.eq_or_lt with rfl | hpos
  · rw [magnitude_zero, magnitude_zero]
  · obtain ⟨m, hm, hplaces⟩ := magnitude_places (f := f) hpos
    rw [hplaces]
    exact magnitude_of_places hm _

/-- Rounding is monotone, also where a power of two lies between. -/
theorem magnitude_mono (f : ℕ) (ha : 0 ≤ a) (hab : a ≤ b) : magnitude f a ≤ magnitude f b := by
  rcases ha.eq_or_lt with rfl | hpos
  · rw [magnitude_zero]
    exact magnitude_nonneg f hab
  rcases (Int.log_mono_right (b := 2) hpos hab).lt_or_eq with hlt | heq
  · obtain ⟨m, hm, hplaces⟩ := magnitude_places (f := f) hpos
    have hlow : (2 : ℚ) ^ Int.log 2 b ≤ magnitude f b := by
      have hb := hpos.trans_le hab
      have hself := Int.zpow_log_le_self (b := 2) (by norm_num) hb
      have hplace := ulp_pos f b
      have hquotient : ((2 ^ f : ℤ) : ℚ) ≤ b / ulp f b := by
        rw [le_div_iff₀ hplace, ulp, ← zpow_eq_places]
        exact_mod_cast hself
      have hround := roundHalfEven_mono hquotient
      rw [roundHalfEven_intCast] at hround
      rw [zpow_eq_places f]
      exact mul_le_mul_of_nonneg_right (by exact_mod_cast hround) hplace.le
    calc magnitude f a ≤ 2 ^ (Int.log 2 a + 1) := hplaces ▸ places_le_zpow hm _
      _ ≤ 2 ^ Int.log 2 b := zpow_le_zpow_right₀ (by norm_num) hlt
      _ ≤ magnitude f b := hlow
  · have hulp : ulp f a = ulp f b := by unfold ulp; rw [heq]
    have hround := roundHalfEven_mono (div_le_div_of_nonneg_right hab (ulp_pos f b).le)
    unfold magnitude
    rw [hulp]
    exact mul_le_mul_of_nonneg_right (by exact_mod_cast hround) (ulp_pos f b).le

/-- Below a power of two a rounding is off by at most half a place. -/
theorem abs_magnitude_sub_le_of_lt (f : ℕ) (ha : 0 ≤ a) (hlt : a < 2 ^ e) :
    |magnitude f a - a| ≤ 2 ^ (e - f - 2) := by
  rcases ha.eq_or_lt with rfl | hpos
  · rw [magnitude_zero, sub_zero, abs_zero]
    exact (zpow_pos (by norm_num) _).le
  have hlog := (Int.lt_zpow_iff_log_lt (b := 2) (by norm_num) hpos).1 (by exact_mod_cast hlt)
  have hplace : ulp f a / 2 ≤ 2 ^ (e - f - 2) := by
    have hhalf : ulp f a / 2 = 2 ^ (Int.log 2 a - f - 1) := by
      rw [zpow_sub_one₀ (by norm_num)]
      rfl
    rw [hhalf]
    exact zpow_le_zpow_right₀ (by norm_num) (by omega)
  exact (abs_magnitude_sub_le f a).trans hplace

/-- A shift by an even number of places, within one binade, goes through the rounding. -/
theorem magnitude_sub {n : ℤ} (hn : Even n) (hlow : (2 : ℚ) ^ e ≤ a - n * 2 ^ (e - f))
    (hhigh : a < 2 ^ (e + 1)) (hshift : 0 ≤ n) :
    magnitude f (a - n * 2 ^ (e - f)) = magnitude f a - n * 2 ^ (e - f) := by
  have hplace : (0 : ℚ) < 2 ^ (e - f) := zpow_pos (by norm_num) _
  have hless : 0 ≤ (n : ℚ) * 2 ^ (e - f) := mul_nonneg (by exact_mod_cast hshift) hplace.le
  have hulp : ulp f a = 2 ^ (e - f) := by
    unfold ulp
    rw [log_eq_of_binade (by linarith) hhigh]
  have hulp' : ulp f (a - n * 2 ^ (e - f)) = 2 ^ (e - f) := by
    unfold ulp
    rw [log_eq_of_binade hlow (by linarith)]
  unfold magnitude
  rw [hulp, hulp', sub_div, mul_div_assoc, div_self hplace.ne', mul_one,
    roundHalfEven_sub_even _ hn]
  push_cast
  ring

end Magnitudes

section Signs

variable {f : ℕ} {x y : ℚ} {e : ℤ}

theorem round_of_nonneg (f : ℕ) (hx : 0 ≤ x) : round f x = magnitude f x := if_neg (not_lt.2 hx)

theorem round_neg (f : ℕ) (x : ℚ) : round f (-x) = -round f x := by
  unfold round
  rcases lt_trichotomy x 0 with h | rfl | h
  · rw [if_neg (by linarith), if_pos h, neg_neg]
  · simp [magnitude_zero]
  · rw [if_pos (by linarith), if_neg (by linarith), neg_neg]

theorem round_mono (f : ℕ) : Monotone (round f) := by
  intro x y hxy
  rcases lt_or_ge x 0 with hx | hx
  · rw [round, if_pos hx]
    rcases lt_or_ge y 0 with hy | hy
    · rw [round, if_pos hy]
      exact neg_le_neg (magnitude_mono f (by linarith) (by linarith))
    · rw [round_of_nonneg f hy]
      have h := magnitude_nonneg f (neg_nonneg.2 hx.le)
      linarith [magnitude_nonneg f hy]
  · rw [round_of_nonneg f hx, round_of_nonneg f (hx.trans hxy)]
    exact magnitude_mono f hx hxy

theorem round_round (f : ℕ) (x : ℚ) : round f (round f x) = round f x := by
  have hnonneg : ∀ a, 0 ≤ a → round f (round f a) = round f a := by
    intro a ha
    rw [round_of_nonneg f ha, round_of_nonneg f (magnitude_nonneg f ha), magnitude_magnitude f ha]
  rcases le_total 0 x with hx | hx
  · exact hnonneg x hx
  · have h := hnonneg (-x) (neg_nonneg.2 hx)
    rwa [round_neg, round_neg, neg_inj] at h

theorem abs_round_sub_le (f : ℕ) (hlt : |x| < 2 ^ e) : |round f x - x| ≤ 2 ^ (e - f - 2) := by
  rcases le_total 0 x with hx | hx
  · rw [abs_of_nonneg hx] at hlt
    rw [round_of_nonneg f hx]
    exact abs_magnitude_sub_le_of_lt f hx hlt
  · rw [abs_of_nonpos hx] at hlt
    have h := abs_magnitude_sub_le_of_lt f (neg_nonneg.2 hx) hlt
    rw [← round_of_nonneg f (neg_nonneg.2 hx), round_neg, ← abs_neg] at h
    convert h using 2
    ring

/-- Two numbers more than a place apart round to different numbers, in their order. -/
theorem round_lt_round (hx : |x| < 2 ^ (e + 1)) (hy : |y| < 2 ^ (e + 1))
    (hgap : x + 2 ^ (e - f) < y) : round f x < round f y := by
  have hexponent : e + 1 - (f : ℤ) - 2 = e - f - 1 := by ring
  have hhalf : (2 : ℚ) ^ (e - f - 1) = 2 ^ (e - (f : ℤ)) / 2 := zpow_sub_one₀ (by norm_num) _
  have h := abs_le.1 (abs_round_sub_le f hx)
  have h' := abs_le.1 (abs_round_sub_le f hy)
  rw [hexponent, hhalf] at h h'
  linarith [h.2, h'.1]

/-- Taking an even number of places off a rounded number, within one binade, is the rounding of
the number without them. -/
theorem round_sub_round {d : ℚ} {n : ℕ} (hn : Even n) (hd : d = n * 2 ^ (e - f))
    (hlow : (2 : ℚ) ^ e ≤ x - d) (hhigh : x < 2 ^ (e + 1)) :
    round f (round f x - d) = round f (x - d) := by
  have hpower : (0 : ℚ) < 2 ^ e := zpow_pos (by norm_num) _
  have hshift : 0 ≤ d := by
    rw [hd]
    exact mul_nonneg (by exact_mod_cast n.zero_le) (zpow_pos (by norm_num) _).le
  have hsub : round f (x - d) = round f x - d := by
    rw [round_of_nonneg f (by linarith), round_of_nonneg f (by linarith)]
    have heven : Even (n : ℤ) := by exact_mod_cast hn
    have hd' : d = (n : ℤ) * 2 ^ (e - f) := by rw [Int.cast_natCast, hd]
    rw [hd'] at hlow ⊢
    exact magnitude_sub heven hlow hhigh (by exact_mod_cast n.zero_le)
  rw [← hsub, round_round]

end Signs

end BinaryFloat
