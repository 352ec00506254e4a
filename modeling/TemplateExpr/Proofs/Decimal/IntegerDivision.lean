import TemplateExpr.Decimal.Quotient
import TemplateExpr.Proofs.Decimal.Integers
import Mathlib.Data.Sign.Basic
/-!
The integer quotients and the remainder. Written at one scale, two decimals have the quotient of their unscaled parts;
so the quotients of these integers, downwards and towards zero, are those of the numbers, and what the second one
leaves over is the remainder of the numbers once it has its scale back.
-/
namespace TemplateExpr.Decimal

def towardsZero (x : ℚ) : ℤ := if 0 ≤ x then ⌊x⌋ else ⌈x⌉

theorem towardsZero_neg (x : ℚ) : towardsZero (-x) = -towardsZero x := by
  unfold towardsZero
  rcases lt_trichotomy x 0 with negative | rfl | positive
  · rw [if_pos (by linarith), if_neg (not_le.mpr negative), Int.floor_neg]
  · simp
  · rw [if_neg (by linarith), if_pos positive.le, Int.ceil_neg]

theorem towardsZero_intCast (n : ℤ) : towardsZero n = n := by
  unfold towardsZero
  split
  · exact Int.floor_intCast n
  · exact Int.ceil_intCast n

theorem towardsZero_of_abs_lt_one {x : ℚ} (small : |x| < 1) : towardsZero x = 0 := by
  obtain ⟨low, high⟩ := abs_lt.mp small
  unfold towardsZero
  split
  · rename_i nonneg
    exact Int.floor_eq_zero_iff.mpr ⟨nonneg, high⟩
  · rename_i negative
    exact Int.ceil_eq_zero_iff.mpr ⟨low, (not_le.mp negative).le⟩

section Integers

theorem fdiv_eq_floor (m n : ℤ) : m.fdiv n = ⌊(m : ℚ) / n⌋ := by
  have positive : ∀ (m : ℤ) (k : ℕ), m.fdiv k = ⌊(m : ℚ) / (k : ℤ)⌋ := by
    intro m k
    rw [Int.fdiv_eq_ediv_of_nonneg m (Int.natCast_nonneg k), Int.cast_natCast, Rat.floor_intCast_div_natCast]
  obtain ⟨k, rfl | rfl⟩ := n.eq_nat_or_neg
  · exact positive m k
  · have mirrored := positive (-m) k
    rwa [← Int.neg_fdiv_neg, neg_neg, Int.cast_neg, neg_div, ← div_neg, ← Int.cast_neg] at mirrored

theorem tdiv_eq_towardsZero (m n : ℤ) : m.tdiv n = towardsZero ((m : ℚ) / n) := by
  have naturals : ∀ j k : ℕ, (j : ℤ).tdiv k = towardsZero (((j : ℤ) : ℚ) / (k : ℤ)) := by
    intro j k
    have nonneg : (0 : ℚ) ≤ ((j : ℤ) : ℚ) / (k : ℤ) := div_nonneg (by simp) (by simp)
    rw [towardsZero, if_pos nonneg, Int.tdiv_eq_ediv_of_nonneg (Int.natCast_nonneg j), Int.cast_natCast k,
      Rat.floor_intCast_div_natCast]
  obtain ⟨j, rfl | rfl⟩ := m.eq_nat_or_neg <;> obtain ⟨k, rfl | rfl⟩ := n.eq_nat_or_neg
  · exact naturals j k
  · rw [Int.tdiv_neg, naturals, Int.cast_neg, div_neg, towardsZero_neg]
  · rw [Int.neg_tdiv, naturals, Int.cast_neg, neg_div, towardsZero_neg]
  · rw [Int.tdiv_neg, Int.neg_tdiv, neg_neg, naturals, Int.cast_neg, Int.cast_neg, neg_div_neg_eq]

theorem abs_tmod_lt {n : ℤ} (nonzero : n ≠ 0) (m : ℤ) : |m.tmod n| < |n| := by
  rw [Int.abs_eq_natAbs, Int.abs_eq_natAbs, Int.natAbs_tmod]
  exact_mod_cast Nat.mod_lt m.natAbs (Int.natAbs_pos.mpr nonzero)

theorem tmod_zero_or_sign (m n : ℤ) : m.tmod n = 0 ∨ (m.tmod n).sign = m.sign := by
  have signs := Int.sign_tmod m n
  by_cases divides : n ∣ m
  · left
    exact Int.tmod_eq_zero_of_dvd divides
  · right
    rwa [if_neg divides] at signs

theorem sign_cast_congr {m n : ℤ} (same : m.sign = n.sign) : SignType.sign (m : ℚ) = SignType.sign (n : ℚ) := by
  have injective : ∀ s t : SignType, (s : ℤ) = t → s = t := by decide
  rw [Int.sign_eq_sign, Int.sign_eq_sign] at same
  rw [sign_intCast, sign_intCast]
  exact injective _ _ same

end Integers

theorem trunc_eq_towardsZero (d : Decimal) : d.trunc = towardsZero d.toRat := by
  unfold trunc
  split
  · rename_i short
    exact (towardsZero_of_abs_lt_one (abs_toRat_lt_one short)).symm
  · split
    · rename_i whole
      rw [toRat_of_scale_le whole, Int.zero_sub, neg_zero, zpow_zero, mul_one, towardsZero_intCast]
    · rename_i fraction
      obtain ⟨places, scale⟩ : ∃ places : ℕ, d.scale = places := ⟨d.scale.toNat, by omega⟩
      have quotient : d.toRat = (d.unscaled : ℚ) / ((tenPow places : ℕ) : ℤ) := by
        rw [toRat, scale, Int.cast_natCast, cast_tenPow, zpow_neg, zpow_natCast, div_eq_mul_inv]
      rw [scale, Int.toNat_natCast, tdiv_eq_towardsZero, quotient]

section Aligned

variable (a b : Decimal)

theorem toRat_align_left : a.toRat = (align a b).1 * 10 ^ (-(align a b).2.2) := toRat_of_scale_le (le_max_left ..)

theorem toRat_align_right : b.toRat = (align a b).2.1 * 10 ^ (-(align a b).2.2) := toRat_of_scale_le (le_max_right ..)

theorem quotient_align : a.toRat / b.toRat = (align a b).1 / (align a b).2.1 := by
  rw [toRat_align_left a b, toRat_align_right a b, mul_div_mul_right _ _ (unit_pos _).ne']

end Aligned

variable {a b : Decimal}

theorem divFloor_eq (nonzero : ¬ b.IsZero) : divFloor a b = .ok (ofInt ⌊a.toRat / b.toRat⌋) := by
  rw [divFloor, if_neg nonzero, quotient_align, ← fdiv_eq_floor]

theorem divTrunc_eq (nonzero : ¬ b.IsZero) : divTrunc a b = .ok (ofInt (towardsZero (a.toRat / b.toRat))) := by
  rw [divTrunc, if_neg nonzero, quotient_align, ← tdiv_eq_towardsZero]

theorem rem_eq (nonzero : ¬ b.IsZero) :
    ∃ r, rem a b = .ok r ∧ r.toRat = ((align a b).1.tmod (align a b).2.1 : ℤ) * 10 ^ (-(align a b).2.2) := by
  refine ⟨normalize ((align a b).1.tmod (align a b).2.1) (align a b).2.2, ?_, toRat_normalize ..⟩
  rw [rem, if_neg nonzero]

theorem align_ne_zero (nonzero : ¬ b.IsZero) : (align a b).2.1 ≠ 0 := by
  have power : (tenPow (max a.scale b.scale - b.scale).toNat : ℤ) ≠ 0 := by exact_mod_cast (tenPow_pos _).ne'
  exact Int.mul_ne_zero nonzero power

/-- The integer quotients are the exact quotient rounded downwards and cut towards zero. What the second one leaves over
is less than the divisor and on the side of the dividend. Nothing fails but a division by zero, and that always does. -/
theorem integer_division (a b : Decimal) :
    (b.IsZero → divFloor a b = .error .divisionByZero ∧ divTrunc a b = .error .divisionByZero ∧
      rem a b = .error .modulusByZero) ∧
    (¬ b.IsZero → ∃ down cut rest, divFloor a b = .ok down ∧ divTrunc a b = .ok cut ∧ rem a b = .ok rest ∧
      down.toRat = ⌊a.toRat / b.toRat⌋ ∧ cut.toRat = towardsZero (a.toRat / b.toRat) ∧
      a.toRat = b.toRat * cut.toRat + rest.toRat ∧ |rest.toRat| < |b.toRat| ∧
      (rest.toRat = 0 ∨ SignType.sign rest.toRat = SignType.sign a.toRat)) := by
  constructor
  · intro none
    exact ⟨if_pos none, if_pos none, if_pos none⟩
  · intro nonzero
    obtain ⟨rest, done, value⟩ := rem_eq (a := a) nonzero
    have unit := unit_pos (align a b).2.2
    refine ⟨_, _, rest, divFloor_eq nonzero, divTrunc_eq nonzero, done, toRat_ofInt _, toRat_ofInt _, ?_, ?_, ?_⟩
    · -- the identity of the integers, at their scale
      have parts := Int.mul_tdiv_add_tmod (align a b).1 (align a b).2.1
      rw [toRat_ofInt, quotient_align, ← tdiv_eq_towardsZero, value, toRat_align_right a b, toRat_align_left a b]
      nth_rewrite 1 [← parts]
      push_cast
      ring
    · have smaller := abs_tmod_lt (align_ne_zero (a := a) nonzero) (align a b).1
      rw [value, toRat_align_right a b, abs_mul, abs_mul, mul_lt_mul_iff_of_pos_right (abs_pos.mpr unit.ne')]
      exact_mod_cast smaller
    · rw [value, toRat_align_left a b, sign_mul, sign_mul, sign_pos unit, mul_one, mul_one]
      rcases tmod_zero_or_sign (align a b).1 (align a b).2.1 with none | same
      · left
        rw [none, Int.cast_zero, zero_mul]
      · exact Or.inr (sign_cast_congr same)

/-- Downwards and towards zero part where the quotient is negative and not whole. -/
example : divFloor ⟨-75, 1⟩ ⟨2, 0⟩ = .ok ⟨-4, 0⟩ ∧ divTrunc ⟨-75, 1⟩ ⟨2, 0⟩ = .ok ⟨-3, 0⟩ ∧
    rem ⟨-75, 1⟩ ⟨2, 0⟩ = .ok ⟨-15, 1⟩ := by decide +kernel

end TemplateExpr.Decimal
