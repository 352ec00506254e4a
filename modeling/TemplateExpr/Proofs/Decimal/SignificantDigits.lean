import TemplateExpr.Proofs.Decimal.RoundingModes
import Mathlib.Data.Int.Log
import Mathlib.Tactic.FieldSimp
/-!
Places and significant digits of numbers. A number is rounded to a place by taking it to an integer in units of that
place; to round to significant digits is to round to the place of the last of them. A number with no more digits
than that is left as it is, and every other one changes by less than a unit of its last digit.
-/
namespace TemplateExpr

/-- `r` is `x` rounded to so many places behind the point. -/
def RoundingMode.Rounds (mode : RoundingMode) (place : ℤ) (x r : ℚ) : Prop :=
  ∃ n : ℤ, mode.Takes (x * 10 ^ place) n ∧ r = n * 10 ^ (-place)

/-- The place of the last one of so many significant digits. -/
def lastPlace (digits : ℕ) (x : ℚ) : ℤ := digits - 1 - Int.log 10 |x|

/-- No more places behind the point are needed to write the number. -/
def HasPlaces (place : ℤ) (x : ℚ) : Prop := ∃ n : ℤ, x = n * 10 ^ (-place)

/-- No more significant digits are needed to write the number. -/
def HasDigits (digits : ℕ) (x : ℚ) : Prop := ∃ n place : ℤ, |n| < 10 ^ digits ∧ x = n * 10 ^ (-place)

variable {mode : RoundingMode} {place : ℤ} {digits : ℕ} {x r s : ℚ}

theorem ten_zpow_pos (k : ℤ) : (0 : ℚ) < 10 ^ k := zpow_pos (by norm_num) k

theorem scaled_eq_iff {n : ℚ} : x * 10 ^ place = n ↔ x = n * 10 ^ (-place) := by
  rw [zpow_neg, ← div_eq_mul_inv, eq_div_iff (ten_zpow_pos place).ne']

theorem hasPlaces_iff : HasPlaces place x ↔ ∃ n : ℤ, x * 10 ^ place = n := by
  simp only [HasPlaces, scaled_eq_iff]

theorem hasPlaces_mono {more : ℤ} (le : place ≤ more) (has : HasPlaces place x) : HasPlaces more x := by
  obtain ⟨n, rfl⟩ := has
  obtain ⟨zeros, rfl⟩ := Int.le.dest le
  refine ⟨n * 10 ^ zeros, ?_⟩
  push_cast
  rw [neg_add, zpow_add₀ (by norm_num), zpow_neg (10 : ℚ) zeros, zpow_natCast]
  field_simp

/-! ### The first digit -/

theorem log_eq {k : ℤ} (low : 10 ^ k ≤ |x|) (high : |x| < 10 ^ (k + 1)) : Int.log 10 |x| = k := by
  have positive := (ten_zpow_pos k).trans_le low
  have least := (Int.zpow_le_iff_le_log (b := 10) (by decide) positive).mp (by exact_mod_cast low)
  have most := (Int.lt_zpow_iff_log_lt (b := 10) (by decide) positive).mp (by exact_mod_cast high)
  omega

theorem log_bounds (nonzero : x ≠ 0) : 10 ^ Int.log 10 |x| ≤ |x| ∧ |x| < 10 ^ (Int.log 10 |x| + 1) := by
  constructor
  · exact_mod_cast Int.zpow_log_le_self (b := 10) (by decide) (abs_pos.mpr nonzero)
  · exact_mod_cast Int.lt_zpow_succ_log_self (b := 10) (by decide) |x|

theorem lastPlace_zero (digits : ℕ) : lastPlace digits 0 = digits - 1 := by
  rw [lastPlace, abs_zero, Int.log_zero_right, sub_zero]

theorem scaled_lastPlace_lt (digits : ℕ) (x : ℚ) : |x * 10 ^ lastPlace digits x| < 10 ^ digits := by
  rcases eq_or_ne x 0 with rfl | nonzero
  · simp
  · rw [abs_mul, abs_of_pos (ten_zpow_pos _)]
    calc
      |x| * 10 ^ lastPlace digits x < 10 ^ (Int.log 10 |x| + 1) * 10 ^ lastPlace digits x :=
        mul_lt_mul_of_pos_right (log_bounds nonzero).2 (ten_zpow_pos _)
      _ = 10 ^ (digits : ℤ) := by
        rw [← zpow_add₀ (by norm_num), lastPlace]
        congr 1
        omega
      _ = 10 ^ digits := zpow_natCast _ _

theorem log_lt {n : ℤ} (nonzero : n ≠ 0) (few : |n| < 10 ^ digits) :
    Int.log 10 |(n : ℚ) * 10 ^ (-place)| < digits - place := by
  have size : |(n : ℚ) * 10 ^ (-place)| = |(n : ℚ)| * 10 ^ (-place) := by
    rw [abs_mul, abs_of_pos (ten_zpow_pos _)]
  have positive : 0 < |(n : ℚ) * 10 ^ (-place)| := by
    rw [size]
    exact mul_pos (abs_pos.mpr (by exact_mod_cast nonzero)) (ten_zpow_pos _)
  have bound : |(n : ℚ)| < 10 ^ (digits : ℤ) := by exact_mod_cast few
  apply (Int.lt_zpow_iff_log_lt (b := 10) (by decide) positive).mp
  rw [size, Nat.cast_ofNat, sub_eq_add_neg, zpow_add₀ (by norm_num)]
  exact mul_lt_mul_of_pos_right bound (ten_zpow_pos _)

theorem hasDigits_iff : HasDigits digits x ↔ HasPlaces (lastPlace digits x) x := by
  constructor
  · rintro ⟨n, place, few, rfl⟩
    rcases eq_or_ne n 0 with rfl | nonzero
    · exact ⟨0, by simp⟩
    · have first : Int.log 10 |(n : ℚ) * 10 ^ (-place)| < digits - place := log_lt nonzero few
      refine hasPlaces_mono ?_ ⟨n, rfl⟩
      rw [lastPlace]
      omega
  · intro has
    obtain ⟨n, scaled⟩ := hasPlaces_iff.mp has
    have few := scaled_lastPlace_lt digits x
    rw [scaled] at few
    exact ⟨n, lastPlace digits x, by exact_mod_cast few, scaled_eq_iff.mp scaled⟩

/-! ### Rounding -/

theorem rounds_unique (first : mode.Rounds place x r) (second : mode.Rounds place x s) : r = s := by
  obtain ⟨m, takes, rfl⟩ := first
  obtain ⟨n, again, rfl⟩ := second
  rw [RoundingMode.takes_unique takes again]

theorem rounds_scaled_iff {n : ℤ} : mode.Rounds place x (n * 10 ^ (-place)) ↔ mode.Takes (x * 10 ^ place) n := by
  constructor
  · rintro ⟨m, takes, same⟩
    have units : n = m := by exact_mod_cast mul_right_cancel₀ (ten_zpow_pos (-place)).ne' same
    rw [units]
    exact takes
  · intro takes
    exact ⟨n, takes, rfl⟩

theorem rounds_of_hasPlaces (has : HasPlaces place x) : mode.Rounds place x r ↔ r = x := by
  obtain ⟨n, scaled⟩ := hasPlaces_iff.mp has
  have own : mode.Rounds place x x := by
    refine ⟨n, ?_, scaled_eq_iff.mp scaled⟩
    rw [scaled]
    exact mode.takes_self n
  constructor
  · intro rounds
    exact rounds_unique rounds own
  · rintro rfl
    exact own

theorem abs_sub_lt_of_rounds (rounds : mode.Rounds place x r) : |r - x| < 10 ^ (-place) := by
  obtain ⟨n, takes, rfl⟩ := rounds
  have unit := ten_zpow_pos (-place)
  have near := RoundingMode.abs_sub_lt_one takes
  have scaled : n * 10 ^ (-place) - x = (n - x * 10 ^ place) * 10 ^ (-place) := by
    rw [sub_mul, mul_assoc, ← zpow_add₀ (by norm_num), add_neg_cancel, zpow_zero, mul_one]
  rw [scaled, abs_mul, abs_of_pos unit]
  exact mul_lt_of_lt_one_left unit near

theorem abs_sub_le_of_rounds (rounds : mode.Rounds (lastPlace digits x) x r) :
    |r - x| ≤ |x| * 10 ^ (1 - digits : ℤ) := by
  rcases eq_or_ne x 0 with rfl | nonzero
  · have whole : HasPlaces (lastPlace digits 0) 0 := ⟨0, by simp⟩
    rw [(rounds_of_hasPlaces whole).mp rounds]
    simp
  · calc
      |r - x| ≤ 10 ^ (-lastPlace digits x) := (abs_sub_lt_of_rounds rounds).le
      _ = 10 ^ Int.log 10 |x| * 10 ^ (1 - digits : ℤ) := by
        rw [← zpow_add₀ (by norm_num), lastPlace]
        congr 1
        omega
      _ ≤ |x| * 10 ^ (1 - digits : ℤ) :=
        mul_le_mul_of_nonneg_right (log_bounds nonzero).1 (ten_zpow_pos _).le

end TemplateExpr
