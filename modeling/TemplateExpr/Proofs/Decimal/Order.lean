import TemplateExpr.Proofs.Decimal.NormalForm
import Mathlib.Algebra.Order.Field.Power
import Mathlib.Data.Nat.Digits.Lemmas
import Mathlib.Order.Compare
/-!
The order of decimals is that of the numbers denoted. Sign and length are bounds on the number, so each of
them decides only what the numbers bear out; the rescaled parts are the numbers times one power of ten.
-/
namespace TemplateExpr.Decimal

theorem unit_pos (scale : Int) : (0 : ℚ) < 10 ^ (-scale) := zpow_pos (by norm_num) _

theorem toRat_pos_iff (d : Decimal) : 0 < d.toRat ↔ 0 < d.unscaled := by
  rw [toRat, mul_pos_iff_of_pos_right (unit_pos d.scale), Int.cast_pos]

theorem toRat_nonneg_iff (d : Decimal) : 0 ≤ d.toRat ↔ 0 ≤ d.unscaled := by
  rw [toRat, mul_nonneg_iff_of_pos_right (unit_pos d.scale), Int.cast_nonneg_iff]

theorem abs_toRat (d : Decimal) : |d.toRat| = d.unscaled.natAbs * 10 ^ (-d.scale) := by
  rw [toRat, abs_mul, abs_of_pos (unit_pos d.scale), Nat.cast_natAbs, Int.cast_abs]

theorem lt_tenPow_digitCount (n : Int) : n.natAbs < tenPow (digitCount n) := by
  rw [digitCount, Digits.ofNat_eq_toDigits]
  exact (Nat.length_toDigits_le_iff (by decide) Nat.length_toDigits_pos).mp le_rfl

theorem digitCount_pos (n : Int) : 0 < digitCount n := by
  rw [digitCount, Digits.ofNat_eq_toDigits]
  exact Nat.length_toDigits_pos

theorem lt_digitCount_iff {n : Int} (nonzero : n ≠ 0) {k : Nat} : k < digitCount n ↔ tenPow k ≤ n.natAbs := by
  rcases Nat.eq_zero_or_pos k with rfl | pos
  · have := digitCount_pos n
    rw [tenPow_zero]
    omega
  · rw [digitCount, Digits.ofNat_eq_toDigits, ← not_le, Nat.length_toDigits_le_iff (by decide) pos, not_lt]
    rfl

theorem abs_toRat_lt (d : Decimal) : |d.toRat| < 10 ^ d.integerDigits := by
  have bound : (d.unscaled.natAbs : ℚ) < 10 ^ digitCount d.unscaled := by
    rw [← cast_tenPow]
    exact_mod_cast lt_tenPow_digitCount d.unscaled
  rw [abs_toRat, integerDigits, sub_eq_add_neg, zpow_add₀ (by norm_num), zpow_natCast]
  exact mul_lt_mul_of_pos_right bound (unit_pos d.scale)

theorem le_abs_toRat {d : Decimal} (nonzero : d.unscaled ≠ 0) : 10 ^ (d.integerDigits - 1) ≤ |d.toRat| := by
  obtain ⟨k, count⟩ : ∃ k, digitCount d.unscaled = k + 1 :=
    ⟨_, (Nat.succ_pred_eq_of_pos (digitCount_pos d.unscaled)).symm⟩
  have least : tenPow k ≤ d.unscaled.natAbs := (lt_digitCount_iff nonzero).mp (by omega)
  have bound : (10 : ℚ) ^ k ≤ d.unscaled.natAbs := by
    rw [← cast_tenPow]
    exact_mod_cast least
  have exponent : d.integerDigits - 1 = k + -d.scale := by
    rw [integerDigits]
    omega
  rw [abs_toRat, exponent, zpow_add₀ (by norm_num), zpow_natCast]
  exact mul_le_mul_of_nonneg_right bound (unit_pos d.scale).le

theorem lt_integerDigits_iff {d : Decimal} (nonzero : d.unscaled ≠ 0) (k : Int) :
    k < d.integerDigits ↔ (10 : ℚ) ^ k ≤ |d.toRat| := by
  constructor
  · intro shorter
    calc
      (10 : ℚ) ^ k ≤ 10 ^ (d.integerDigits - 1) := zpow_le_zpow_right₀ (by norm_num) (by omega)
      _ ≤ |d.toRat| := le_abs_toRat nonzero
  · intro reached
    exact (zpow_lt_zpow_iff_right₀ (by norm_num)).mp (reached.trans_lt (abs_toRat_lt d))

theorem abs_toRat_lt_of_integerDigits_lt {a b : Decimal} (nonzero : b.unscaled ≠ 0)
    (shorter : a.integerDigits < b.integerDigits) : |a.toRat| < |b.toRat| :=
  calc
    |a.toRat| < 10 ^ a.integerDigits := abs_toRat_lt a
    _ ≤ |b.toRat| := (lt_integerDigits_iff nonzero a.integerDigits).mp shorter

theorem scaled_eq (d : Decimal) {scale : Int} (room : d.scale ≤ scale) :
    ((d.unscaled * tenPow (scale - d.scale).toNat : Int) : ℚ) = d.toRat * 10 ^ scale := by
  have gap : ((scale - d.scale).toNat : Int) = -d.scale + scale := by omega
  rw [toRat, Int.cast_mul, Int.cast_natCast, cast_tenPow, ← zpow_natCast, gap, zpow_add₀ (by norm_num),
    mul_assoc]

theorem align_compares (a b : Decimal) :
    (Ord.compare (align a b).1 (align a b).2.1).Compares a.toRat b.toRat := by
  have same : cmp (align a b).1 (align a b).2.1 = cmp a.toRat b.toRat := by
    have unit : (0 : ℚ) < 10 ^ max a.scale b.scale := zpow_pos (by norm_num) _
    rw [← cmp_mul_pos_right unit, ← scaled_eq a (le_max_left _ _), ← scaled_eq b (le_max_right _ _)]
    exact (Int.cast_strictMono.cmp_map_eq _ _).symm
  rw [← cmp_eq_compare, same]
  exact cmp_compares _ _

theorem sign_lt_sign_iff (m n : Int) : m.sign < n.sign ↔ m < 0 ∧ 0 ≤ n ∨ m ≤ 0 ∧ 0 < n := by
  rcases lt_trichotomy m 0 with hm | rfl | hm <;> rcases lt_trichotomy n 0 with hn | rfl | hn <;>
    simp [Int.sign_eq_neg_one_of_neg, Int.sign_eq_one_of_pos, *] <;> omega

theorem toRat_lt_of_sign_lt {a b : Decimal} (order : a.unscaled.sign < b.unscaled.sign) :
    a.toRat < b.toRat := by
  rcases (sign_lt_sign_iff _ _).mp order with ⟨below, above⟩ | ⟨below, above⟩
  · have negative := mt (toRat_nonneg_iff a).mp (not_le.mpr below)
    exact lt_of_lt_of_le (not_le.mp negative) ((toRat_nonneg_iff b).mpr above)
  · have nonpositive := mt (toRat_pos_iff a).mp (not_lt.mpr below)
    exact lt_of_le_of_lt (not_lt.mp nonpositive) ((toRat_pos_iff b).mpr above)

theorem sign_eq_sign_iff (m n : Int) : m.sign = n.sign ↔ m < 0 ∧ n < 0 ∨ m = 0 ∧ n = 0 ∨ 0 < m ∧ 0 < n := by
  rcases lt_trichotomy m 0 with hm | rfl | hm <;> rcases lt_trichotomy n 0 with hn | rfl | hn <;>
    simp [Int.sign_eq_neg_one_of_neg, Int.sign_eq_one_of_pos, *] <;> omega

theorem toRat_lt_of_integerDigits_lt {a b : Decimal}
    (signs : a.unscaled < 0 ∧ b.unscaled < 0 ∨ 0 < a.unscaled ∧ 0 < b.unscaled)
    (shorter : a.integerDigits < b.integerDigits) :
    if a.unscaled < 0 then b.toRat < a.toRat else a.toRat < b.toRat := by
  have larger := abs_toRat_lt_of_integerDigits_lt (by omega) shorter
  rcases signs with ⟨ha, hb⟩ | ⟨ha, hb⟩
  · have below := mt (toRat_nonneg_iff a).mp (not_le.mpr ha)
    have below' := mt (toRat_nonneg_iff b).mp (not_le.mpr hb)
    rw [abs_of_neg (not_le.mp below), abs_of_neg (not_le.mp below')] at larger
    rw [if_pos ha]
    exact neg_lt_neg_iff.mp larger
  · rw [abs_of_pos ((toRat_pos_iff a).mpr ha), abs_of_pos ((toRat_pos_iff b).mpr hb)] at larger
    rw [if_neg ha.not_gt]
    exact larger

theorem compare_compares (a b : Decimal) : (a.compare b).Compares a.toRat b.toRat := by
  rcases lt_trichotomy a.unscaled.sign b.unscaled.sign with less | sign | greater
  · rw [compare, compare_lt_iff_lt.mpr less]
    exact toRat_lt_of_sign_lt less
  · have signs := (sign_eq_sign_iff _ _).mp sign
    by_cases zero : a.unscaled = 0
    · have zero' : b.unscaled = 0 := by omega
      simp [compare, IsZero, zero, zero', toRat]
    · have signs : a.unscaled < 0 ∧ b.unscaled < 0 ∨ 0 < a.unscaled ∧ 0 < b.unscaled := by omega
      rcases lt_trichotomy a.integerDigits b.integerDigits with shorter | same | longer
      · have decided := toRat_lt_of_integerDigits_lt signs shorter
        by_cases negative : a.unscaled < 0 <;>
          simpa [compare, IsZero, IsNegative, zero, sign, compare_lt_iff_lt.mpr shorter, negative]
            using decided
      · have aligned := align_compares a b
        simpa [compare, IsZero, zero, sign, same] using aligned
      · have decided := toRat_lt_of_integerDigits_lt (by omega) longer
        have other : b.unscaled < 0 ↔ a.unscaled < 0 := by omega
        by_cases negative : a.unscaled < 0 <;>
          simpa [compare, IsZero, IsNegative, zero, sign, compare_gt_iff_gt.mpr longer, negative, other]
            using decided
  · rw [compare, compare_gt_iff_gt.mpr greater]
    exact toRat_lt_of_sign_lt greater

theorem compare_eq_cmp (a b : Decimal) : a.compare b = cmp a.toRat b.toRat :=
  (compare_compares a b).cmp_eq.symm

end TemplateExpr.Decimal
