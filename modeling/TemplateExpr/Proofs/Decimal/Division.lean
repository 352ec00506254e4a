import TemplateExpr.Decimal.Quotient
import TemplateExpr.Proofs.Decimal.Results
import TemplateExpr.Proofs.Decimal.Rounding
/-!
Division is correctly rounded. The dividend gets so many zeros that the integer quotient is longer than the digits
asked for, and what the integer division leaves over only tells whether something is lost behind them; so to round
the integer quotient is to round the quotient itself.
-/
namespace TemplateExpr.Decimal

/-! ### The integer quotient -/

theorem cutsTo_tdiv {m n : ℤ} (nonzero : n ≠ 0) (some : m.tdiv n ≠ 0) :
    CutsTo (m.tdiv n < 0) ((m : ℚ) / n) (m.tdiv n) (m.tmod n != 0) := by
  have cut : ∃ negative, CutsTo negative ((m : ℚ) / n) (m.tdiv n) (m.tmod n != 0) := by
    obtain ⟨k, rfl | rfl⟩ := n.eq_nat_or_neg
    · exact ⟨_, (cutsTo_self m).divided (by omega)⟩
    · rw [Int.tdiv_neg, Int.tmod_neg, Int.cast_neg, div_neg]
      exact ⟨_, ((cutsTo_self m).divided (by omega)).neg⟩
  obtain ⟨negative, cut⟩ := cut
  rw [← cut.negative_eq some]
  exact cut

theorem tenPow_le_quotient {m n : ℤ} (some : m ≠ 0) (nonzero : n ≠ 0) {digits shift : ℕ}
    (long : digits + 1 + digitCount n ≤ digitCount m + shift) :
    tenPow digits ≤ ((m * tenPow shift).tdiv n).natAbs := by
  obtain ⟨k, count⟩ : ∃ k, digitCount m = k + 1 := ⟨_, (Nat.succ_pred_eq_of_pos (digitCount_pos m)).symm⟩
  rw [Int.natAbs_tdiv, Int.natAbs_mul, Int.natAbs_natCast]
  apply (Nat.le_div_iff_mul_le (Int.natAbs_pos.mpr nonzero)).mpr
  calc
    tenPow digits * n.natAbs ≤ tenPow digits * tenPow (digitCount n) :=
      Nat.mul_le_mul_left _ (lt_tenPow_digitCount n).le
    _ = tenPow (digits + digitCount n) := (tenPow_add _ _).symm
    _ ≤ tenPow (k + shift) := Nat.pow_le_pow_right (by decide) (by omega)
    _ = tenPow k * tenPow shift := tenPow_add _ _
    _ ≤ m.natAbs * tenPow shift := Nat.mul_le_mul_right _ ((lt_digitCount_iff some).mp (by omega))

theorem quotient_eq (a b : Decimal) (shift : ℕ) :
    a.toRat / b.toRat =
      ((a.unscaled * tenPow shift : ℤ) : ℚ) / b.unscaled * 10 ^ (-(a.scale - b.scale + shift)) := by
  rw [toRat_eq a, toRat_eq b, show -(a.scale - b.scale + shift : ℤ) = -a.scale - -b.scale - shift by omega,
    zpow_sub₀ (by norm_num), zpow_sub₀ (by norm_num), zpow_natCast, ← cast_tenPow]
  have positive : (tenPow shift : ℚ) ≠ 0 := by exact_mod_cast (tenPow_pos shift).ne'
  push_cast
  field_simp

variable {a b : Decimal} {math : MathSettings}

theorem rounding_div (nonzero : ¬ b.IsZero) (positive : 0 < math.precision) :
    maxShift < math.precision + 2 + digitCount b.unscaled ∧ div a b math = .error .scaleOutOfRange ∨
      Rounding math.rounding (a.toRat / b.toRat) (lastPlace math.precision (a.toRat / b.toRat)) (div a b math) := by
  have divisor : b.unscaled ≠ 0 := nonzero
  rw [div, if_neg nonzero, if_neg positive.ne']
  dsimp only
  generalize extra : math.precision + 2 + digitCount b.unscaled - digitCount a.unscaled = shift
  split
  · rename_i none
    have quotient : a.toRat / b.toRat = zero.toRat := by
      rw [toRat_eq a, show a.unscaled = 0 from none, toRat_eq zero, zero, Int.cast_zero, zero_mul, zero_mul, zero_div]
    have places : 0 ≤ lastPlace math.precision zero.toRat := by
      rw [toRat_eq zero, zero, Int.cast_zero, zero_mul, lastPlace_zero]
      omega
    right
    rw [quotient]
    exact rounding_self isNormal_zero places
  · rename_i some
    split
    · rename_i beyond
      left
      exact ⟨by omega, rfl⟩
    · right
      have long : tenPow math.precision ≤ ((a.unscaled * tenPow shift).tdiv b.unscaled).natAbs :=
        tenPow_le_quotient some divisor (by omega)
      have quotient : (a.unscaled * tenPow shift).tdiv b.unscaled ≠ 0 := by
        have := tenPow_pos math.precision
        omega
      rw [quotient_eq a b shift]
      exact rounding_longer (cutsTo_tdiv divisor quotient) quotient _ positive ((lt_digitCount_iff quotient).mpr long)

/-- If there is room for the zeros of the dividend, a division yields the quotient rounded to the digits asked for, and
nothing else. It finds a rounding necessary exactly if the mode allows none and the quotient needs one. Every other
quotient is rounded, and comes out if its scale, without trailing zeros, is in range. -/
theorem div_rounds_correctly (nonzero : ¬ b.IsZero) (positive : 0 < math.precision)
    (room : math.precision + 2 + digitCount b.unscaled ≤ maxShift) :
    let quotient := a.toRat / b.toRat
    let place := lastPlace math.precision quotient
    (∀ r, div a b math = .ok r → math.rounding.Rounds place quotient r.toRat) ∧
    (div a b math = .error .roundingNecessary ↔
      math.rounding = .unnecessary ∧ ¬ HasDigits math.precision quotient) ∧
    (math.rounding ≠ .unnecessary ∨ HasDigits math.precision quotient →
      ∃ x, math.rounding.Rounds place quotient x ∧
        ∀ scale, ScaleOf x scale → minScale ≤ scale → scale ≤ maxScale → ∃ r, div a b math = .ok r) := by
  intro quotient place
  have rounding : Rounding math.rounding quotient place (div a b math) :=
    (rounding_div nonzero positive).resolve_left fun beyond => absurd room (not_le.mpr beyond.1)
  rw [hasDigits_iff]
  refine ⟨?_, refused_iff rounding, ok_of_scaleOf rounding⟩
  intro r done
  exact rounds_of_ok rounding done

/-- A negative quotient with a tie in its last digit, which carries over all of them. -/
theorem div_rounds_correctly_carry :
    let a : Decimal := ⟨-1999, 1⟩
    let b : Decimal := ⟨2, -1⟩
    ¬ b.IsZero ∧ 3 + 2 + digitCount b.unscaled ≤ maxShift ∧ div a b ⟨3, .halfEven⟩ = .ok ⟨-1, -1⟩ ∧
      RoundingMode.halfEven.Rounds (lastPlace 3 (a.toRat / b.toRat)) (a.toRat / b.toRat) (-10) := by
  intro a b
  have nonzero : ¬ b.IsZero := by decide
  have room : 3 + 2 + digitCount b.unscaled ≤ maxShift := by decide
  have ten : div a b ⟨3, .halfEven⟩ = .ok ⟨-1, -1⟩ := by decide +kernel
  have value : (⟨-1, -1⟩ : Decimal).toRat = -10 := by norm_num [toRat]
  have rounds := (@div_rounds_correctly a b ⟨3, .halfEven⟩ nonzero (by decide) room).1 _ ten
  rw [value] at rounds
  exact ⟨nonzero, room, ten, rounds⟩

end TemplateExpr.Decimal
