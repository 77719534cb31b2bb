import AiRetrieval.Spec.Capacity

/-! How far a binary64 timestamp is from the time it stands for, and what a minute of timestamps
is a minute of. -/

namespace AiRetrieval

open BinaryFloat HierarchicalCapacity

theorem binary64_mono : Monotone binary64 := round_mono 52

theorem HierarchicalCapacity.cutoff_mono : Monotone cutoff := by
  intro a b h
  exact binary64_mono (sub_le_sub_right h windowSeconds)

def DateTime.seconds (zone : LocalZone) (t : DateTime) : Except PyError Rat :=
  if t.aware = true then .ok ((t.instant - epoch : Int) / 1000000)
  else do
    let seconds ← zone (t.instant / 1000000)
    return seconds + (t.instant % 1000000 : Int) / 1000000

/-- More than a minute closer to the epoch than `2 ^ p` seconds. -/
def Within (p : ℕ) (x : Rat) : Prop := |x| + 62 ≤ 2 ^ p

/-- A bound on what rounding moves a timestamp by. -/
def stampError (p : ℕ) : Rat := 2 ^ ((p : ℤ) - 54) + 1 / 18014398509481984

section Readings

variable {zone : LocalZone} {t : DateTime} {x stamp : Rat}

theorem DateTime.seconds_of_timestamp (h : t.timestamp zone = .ok stamp) :
    ∃ x, t.seconds zone = .ok x := by
  unfold timestamp at h
  unfold seconds
  split
  · exact ⟨_, rfl⟩
  · next haware =>
    rw [if_neg haware] at h
    obtain ⟨whole, hzone, -⟩ := except_bind_eq_ok.1 h
    exact ⟨_, except_bind_eq_ok.2 ⟨whole, hzone, rfl⟩⟩

theorem DateTime.timestamp_of_seconds (h : t.seconds zone = .ok x) :
    ∃ stamp, t.timestamp zone = .ok stamp := by
  unfold seconds at h
  unfold timestamp
  split
  · exact ⟨_, rfl⟩
  · next haware =>
    rw [if_neg haware] at h
    obtain ⟨whole, hzone, -⟩ := except_bind_eq_ok.1 h
    exact ⟨_, except_bind_eq_ok.2 ⟨whole, hzone, rfl⟩⟩

theorem DateTime.seconds_whole (h : t.seconds zone = .ok x) : ∃ n : Int, x = n / 1000000 := by
  unfold seconds at h
  split at h
  · cases h
    exact ⟨_, rfl⟩
  · obtain ⟨whole, -, h⟩ := except_bind_eq_ok.1 h
    cases h
    refine ⟨whole * 1000000 + t.instant % 1000000, ?_⟩
    push_cast
    ring

theorem DateTime.timestamp_of_aware (haware : t.aware = true) (h : t.seconds zone = .ok x) :
    t.timestamp zone = .ok (binary64 x) := by
  unfold seconds at h
  unfold timestamp
  rw [if_pos haware] at h ⊢
  cases h
  rfl

theorem abs_binary64_sub_le {p : ℕ} (h : |x| < 2 ^ p) :
    |binary64 x - x| ≤ 2 ^ ((p : ℤ) - 54) := by
  have hpower : |x| < (2 : ℚ) ^ (p : ℤ) := by exact_mod_cast h
  have herror := abs_round_sub_le 52 hpower
  have hexponent : (p : ℤ) - (52 : ℕ) - 2 = p - 54 := by omega
  rwa [hexponent] at herror

theorem abs_fraction_lt (n : Int) : |((n % 1000000 : Int) : Rat) / 1000000| <
    (2 : ℚ) ^ (0 : ℤ) := by
  have hlow : (0 : ℚ) ≤ (n % 1000000 : Int) := by
    exact_mod_cast Int.emod_nonneg n (by norm_num : (1000000 : ℤ) ≠ 0)
  have hhigh : ((n % 1000000 : Int) : ℚ) < 1000000 := by
    exact_mod_cast Int.emod_lt_of_pos n (by norm_num : (0 : ℤ) < 1000000)
  rw [abs_of_nonneg (by positivity), zpow_zero, div_lt_one (by norm_num)]
  exact hhigh

theorem DateTime.abs_timestamp_sub_le {p : ℕ} (h : t.seconds zone = .ok x)
    (hstamp : t.timestamp zone = .ok stamp) (hwithin : Within p x) :
    |stamp - x| ≤ stampError p := by
  unfold Within at hwithin
  unfold stampError
  unfold seconds at h
  unfold timestamp at hstamp
  split at h
  · next haware =>
    rw [if_pos haware] at hstamp
    cases h
    cases hstamp
    have herror := abs_binary64_sub_le
      (lt_of_lt_of_le (lt_add_of_pos_right _ (by norm_num)) hwithin)
    exact herror.trans (le_add_of_nonneg_right (by norm_num))
  · next haware =>
    rw [if_neg haware] at hstamp
    obtain ⟨whole, hzone, h⟩ := except_bind_eq_ok.1 h
    obtain ⟨whole', hzone', hstamp⟩ := except_bind_eq_ok.1 hstamp
    cases hzone.symm.trans hzone'
    cases h
    cases hstamp
    -- the microseconds are rounded first, then the sum
    have hinner := abs_round_sub_le 52 (abs_fraction_lt t.instant)
    generalize ((t.instant % 1000000 : Int) : Rat) / 1000000 = fraction at hwithin hinner ⊢
    norm_num at hinner
    replace hinner : |binary64 fraction - fraction| ≤ 1 / 18014398509481984 := hinner
    have hsum : |(whole : ℚ) + binary64 fraction| < 2 ^ p := by
      have hmoved := abs_add_le ((whole : ℚ) + fraction) (binary64 fraction - fraction)
      have hsame : (whole : ℚ) + fraction + (binary64 fraction - fraction) =
          whole + binary64 fraction := by ring
      rw [hsame] at hmoved
      linarith
    have houter := abs_le.1 (abs_binary64_sub_le hsum)
    have hinner' := abs_le.1 hinner
    rw [abs_le]
    constructor <;> linarith [houter.1, houter.2, hinner'.1, hinner'.2]

/-- A time less than a minute back, by more than three roundings, is after the cutoff. -/
theorem cutoff_lt {p : ℕ} {y later gap : Rat} (hx : |stamp - x| ≤ stampError p)
    (hy : |later - y| ≤ stampError p) (hwithin : Within p y)
    (hgap : 3 * stampError p ≤ gap) (hp : p ≤ 53) (h : y - 60 + gap ≤ x) :
      cutoff later < stamp := by
  unfold Within at hwithin
  have herror : stampError p ≤ 1 := by
    have hpower : (2 : ℚ) ^ ((p : ℤ) - 54) ≤ 2 ^ (-1 : ℤ) :=
      zpow_le_zpow_right₀ (by norm_num) (by omega)
    unfold stampError
    norm_num at hpower ⊢
    linarith
  have hx' := abs_le.1 hx
  have hy' := abs_le.1 hy
  have hyrange := abs_le.1 (le_refl |y|)
  have hrange : |later - windowSeconds| < 2 ^ p := by
    unfold windowSeconds
    rw [abs_lt]
    constructor <;> linarith [hy'.1, hy'.2, hyrange.1, hyrange.2]
  have hcutoff := abs_le.1 (abs_binary64_sub_le hrange)
  have hless : (2 : ℚ) ^ ((p : ℤ) - 54) < stampError p := lt_add_of_pos_right _ (by norm_num)
  unfold windowSeconds at hcutoff
  unfold cutoff windowSeconds
  linarith [hcutoff.2, hx'.1, hy'.2]

theorem microsecond_le {y : Rat} (hx : ∃ n : Int, x = n / 1000000)
    (hy : ∃ n : Int, y = n / 1000000) (h : y - 60 < x) : y - 60 + 1 / 1000000 ≤ x := by
  obtain ⟨m, rfl⟩ := hx
  obtain ⟨n, rfl⟩ := hy
  have hint : n - 60000000 < m := by
    have hscaled : (n : ℚ) - 60000000 < m := by linarith
    exact_mod_cast hscaled
  have hstep : ((n - 60000000 + 1 : ℤ) : ℚ) ≤ m := by exact_mod_cast hint
  push_cast at hstep
  linarith

end Readings

section Steady

variable {x y : Rat}

/-- Binary64 keeps the microseconds around `x` apart, and a minute back it has the same places. -/
def Steady (x : Rat) : Prop := ∃ k : ℕ, k ≤ 32 ∧ 2 ^ k ≤ x - 60 ∧ x < 2 ^ (k + 1)

theorem cutoff_binary64 (h : Steady x) : cutoff (binary64 x) = binary64 (x - 60) := by
  obtain ⟨k, hk, hlow, hhigh⟩ := h
  have hplaces : (60 : ℚ) = ((60 * 2 ^ (52 - k) : ℕ) : ℚ) * 2 ^ ((k : ℤ) - (52 : ℕ)) := by
    push_cast
    rw [mul_assoc, ← zpow_natCast, ← zpow_add₀ (by norm_num)]
    have hexponent : ((52 - k : ℕ) : ℤ) + ((k : ℤ) - 52) = 0 := by omega
    rw [hexponent, zpow_zero, mul_one]
  have heven : Even (60 * 2 ^ (52 - k)) := Even.mul_right (by decide) _
  refine round_sub_round heven hplaces ?_ ?_
  · exact_mod_cast hlow
  · exact_mod_cast hhigh

/-- At a steady time the minute of timestamps is the minute of the times they stand for. -/
theorem cutoff_lt_iff (hx : ∃ n : Int, x = n / 1000000) (hy : ∃ n : Int, y = n / 1000000)
    (hsteady : Steady y) (hle : x ≤ y) : cutoff (binary64 y) < binary64 x ↔ y - 60 < x := by
  rw [cutoff_binary64 hsteady]
  constructor
  · intro h
    by_contra hold
    exact absurd (binary64_mono (not_lt.1 hold)) (not_le.2 h)
  · intro h
    obtain ⟨k, hk, hlow, hhigh⟩ := hsteady
    have hpower : (0 : ℚ) < 2 ^ k := by positivity
    have hhigh' : y < (2 : ℚ) ^ ((k : ℤ) + 1) := by exact_mod_cast hhigh
    have hgap := microsecond_le hx hy h
    have hplace : (2 : ℚ) ^ ((k : ℤ) - (52 : ℕ)) < 1 / 1000000 := by
      calc (2 : ℚ) ^ ((k : ℤ) - (52 : ℕ)) ≤ 2 ^ (-20 : ℤ) :=
            zpow_le_zpow_right₀ (by norm_num) (by push_cast; omega)
        _ < 1 / 1000000 := by norm_num
    refine round_lt_round (e := k) ?_ ?_ ((add_lt_add_right hplace (y - 60)).trans_le hgap)
    · rw [abs_of_pos (by linarith)]
      linarith
    · rw [abs_of_pos (by linarith)]
      linarith

end Steady

end AiRetrieval
