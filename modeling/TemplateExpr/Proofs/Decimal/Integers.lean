import TemplateExpr.Proofs.Decimal.Order
import Mathlib.Data.Rat.Floor
/-!
The integers next to a decimal, as those next to the number denoted, and the places that a normal decimal has.
-/
namespace TemplateExpr.Decimal

theorem toRat_of_scale_le {d : Decimal} {scale : Int} (room : d.scale ≤ scale) :
    d.toRat = (d.unscaled * tenPow (scale - d.scale).toNat : Int) * 10 ^ (-scale) := by
  rw [scaled_eq d room, mul_assoc, ← zpow_add₀ (by norm_num), add_neg_cancel, zpow_zero, mul_one]

theorem abs_toRat_lt_one {d : Decimal} (short : d.integerDigits ≤ 0) : |d.toRat| < 1 :=
  calc
    |d.toRat| < 10 ^ d.integerDigits := abs_toRat_lt d
    _ ≤ 10 ^ (0 : Int) := zpow_le_zpow_right₀ (by norm_num) short
    _ = 1 := zpow_zero _

theorem floor_eq (d : Decimal) : d.floor = ⌊d.toRat⌋ := by
  unfold floor
  split
  · rename_i short
    obtain ⟨low, high⟩ := abs_lt.mp (abs_toRat_lt_one short)
    split
    · rename_i negative
      have below : ¬ 0 ≤ d.toRat := mt (toRat_nonneg_iff d).mp (not_le.mpr negative)
      symm
      rw [Int.floor_eq_iff]
      constructor
      · exact_mod_cast low.le
      · simpa using below
    · rename_i negative
      have above := (toRat_nonneg_iff d).mpr (not_lt.mp negative)
      exact (Int.floor_eq_zero_iff.mpr ⟨above, high⟩).symm
  · rename_i long
    split
    · rename_i whole
      rw [trunc, if_neg long, if_pos whole, toRat_of_scale_le whole, Int.zero_sub, neg_zero, zpow_zero, mul_one,
        Int.floor_intCast]
    · rename_i fraction
      obtain ⟨places, scale⟩ : ∃ places : Nat, d.scale = places := ⟨d.scale.toNat, by omega⟩
      have quotient : d.toRat = (d.unscaled : ℚ) / (tenPow places : Nat) := by
        rw [toRat, scale, cast_tenPow, zpow_neg, zpow_natCast, div_eq_mul_inv]
      rw [scale, Int.toNat_natCast, Int.fdiv_eq_ediv_of_nonneg _ (by omega), quotient, Rat.floor_intCast_div_natCast]

theorem eq_normalize {d : Decimal} (normal : d.IsNormal) {unscaled scale : Int} (low : minScale ≤ scale)
    (high : scale ≤ maxScale) (value : d.toRat = unscaled * 10 ^ (-scale)) : d = normalize unscaled scale :=
  toRat_injective normal (isNormal_normalize low high) (value.trans (toRat_normalize unscaled scale).symm)

theorem toRat_product (a b : Decimal) :
    ((a.unscaled * b.unscaled : ℤ) : ℚ) * 10 ^ (-(a.scale + b.scale)) = a.toRat * b.toRat := by
  rw [toRat, toRat, Int.cast_mul, neg_add, zpow_add₀ (by norm_num)]
  ring

theorem toRat_mul (a b : Decimal) : (mul a b).toRat = a.toRat * b.toRat := by
  rw [mul, toRat_normalize, toRat_product]

theorem toRat_checkedMul {a b r : Decimal} (done : checkedMul a b = .ok r) : r.toRat = a.toRat * b.toRat := by
  rw [toRat_checked done, toRat_product]

theorem toRat_sub (a b : Decimal) : (sub a b).toRat = a.toRat - b.toRat := by
  have first := toRat_of_scale_le (le_max_left a.scale b.scale)
  have second := toRat_of_scale_le (le_max_right a.scale b.scale)
  rw [first, second, ← sub_mul, ← Int.cast_sub]
  exact toRat_normalize _ _

theorem integerDigits_of_zero {d : Decimal} (plain : d.unscaled = 0 → d.scale = 0) (zero : d.IsZero) :
    d.integerDigits = 1 := by
  rw [integerDigits, plain zero, zero]
  rfl

theorem integerDigits_le_of_abs_lt {d : Decimal} (normal : d.IsNormal) {digits : Nat} (pos : 0 < digits)
    (bound : |d.toRat| < 10 ^ digits) : d.integerDigits ≤ digits := by
  by_cases zero : d.IsZero
  · rw [integerDigits_of_zero normal.scale_of_zero zero]
    omega
  · rw [← not_lt, lt_integerDigits_iff zero, not_le, zpow_natCast]
    exact bound

theorem eq_ofInt {d : Decimal} (normal : d.IsNormal) {n : ℤ} (value : d.toRat = n) : d = ofInt n :=
  toRat_injective normal (isNormal_ofInt n) (value.trans (toRat_ofInt n).symm)

theorem isInteger_ofInt (n : ℤ) : (ofInt n).IsInteger := by
  by_cases zero : n = 0
  · rw [zero]
    decide
  · obtain ⟨zeros, _, place, _, _⟩ := normalize_strips 0 zero
    change 0 = (ofInt n).scale + _ at place
    rw [IsInteger]
    omega

theorem isInteger_iff {d : Decimal} (normal : d.IsNormal) : d.IsInteger ↔ ∃ n : ℤ, d.toRat = n := by
  constructor
  · intro whole
    have value := toRat_of_scale_le whole
    rw [neg_zero, zpow_zero, mul_one] at value
    exact ⟨_, value⟩
  · rintro ⟨n, value⟩
    rw [eq_ofInt normal value]
    exact isInteger_ofInt n

theorem fitsSigned_32_iff (n : ℤ) : FitsSigned 32 n ↔ -2147483648 ≤ n ∧ n ≤ 2147483647 := by
  have power : (twoPow (32 - 1) : ℤ) = 2147483648 := rfl
  rw [FitsSigned, power]
  omega

end TemplateExpr.Decimal
