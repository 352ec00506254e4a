import TemplateExpr.Proofs.Decimal.ScaleRange
/-!
Exact arithmetic. Sums, differences, products, negation and magnitude are those of the numbers denoted, and so is the
order, in which only a decimal itself is equal to it.
-/
namespace TemplateExpr.Decimal

theorem toRat_add (a b : Decimal) : (add a b).toRat = a.toRat + b.toRat := by
  rw [toRat_of_scale_le (le_max_left a.scale b.scale), toRat_of_scale_le (le_max_right a.scale b.scale), ← add_mul,
    ← Int.cast_add]
  exact toRat_normalize _ _

theorem toRat_neg (a : Decimal) : (neg a).toRat = -a.toRat := by
  rw [toRat, toRat, neg, Int.cast_neg, neg_mul]

theorem toRat_abs (a : Decimal) : (abs a).toRat = |a.toRat| := by
  rw [abs_toRat, toRat, abs, Int.cast_natCast]

theorem hasPlaces_product (a b : Decimal) : HasPlaces (a.scale + b.scale) (a.toRat * b.toRat) :=
  ⟨a.unscaled * b.unscaled, (toRat_product a b).symm⟩

variable {a b : Decimal}

theorem checkedMul_ok {scale : ℤ} (stripped : ScaleOf (a.toRat * b.toRat) scale) (low : minScale ≤ scale)
    (high : scale ≤ maxScale) : ∃ r, checkedMul a b = .ok r := by
  rw [← toRat_product] at stripped
  exact checked_of_scaleOf stripped low high

theorem compare_eq_iff (ha : a.IsNormal) (hb : b.IsNormal) : a.compare b = .eq ↔ a = b := by
  rw [compare_eq_cmp, cmp_eq_eq_iff]
  constructor
  · exact toRat_injective ha hb
  · rintro rfl
    rfl

/-- Decimals are computed with and compared as the rational numbers that they denote. A product fails only if it may: if
its scale without trailing zeros is in range, it is there. -/
theorem arithmetic_exact (ha : a.IsNormal) (hb : b.IsNormal) :
    (add a b).toRat = a.toRat + b.toRat ∧ (sub a b).toRat = a.toRat - b.toRat ∧ (neg a).toRat = -a.toRat ∧
    (abs a).toRat = |a.toRat| ∧
    (∀ r, checkedMul a b = .ok r → r.toRat = a.toRat * b.toRat) ∧
    (∃ scale, ScaleOf (a.toRat * b.toRat) scale ∧
      (minScale ≤ scale → scale ≤ maxScale → ∃ r, checkedMul a b = .ok r)) ∧
    a.compare b = cmp a.toRat b.toRat ∧ (a.compare b = .eq ↔ a = b) := by
  obtain ⟨scale, stripped⟩ := exists_scaleOf (hasPlaces_product a b)
  have product : ∀ r, checkedMul a b = .ok r → r.toRat = a.toRat * b.toRat := fun r done => toRat_checkedMul done
  have there : minScale ≤ scale → scale ≤ maxScale → ∃ r, checkedMul a b = .ok r := checkedMul_ok stripped
  exact ⟨toRat_add a b, toRat_sub a b, toRat_neg a, toRat_abs a, product, ⟨scale, stripped, there⟩, compare_eq_cmp a b,
    compare_eq_iff ha hb⟩

/-- Scales at both ends of their range, and a trailing zero at the least one. -/
theorem arithmetic_exact_extremes :
    let a : Decimal := ⟨-10, minScale⟩
    let b : Decimal := ⟨1, maxScale⟩
    a.IsNormal ∧ b.IsNormal ∧ a.compare b = .lt ∧ a.toRat < b.toRat ∧ checkedMul a b = .ok ⟨-1, -2⟩ ∧
      a.toRat * b.toRat = -100 := by
  intro a b
  have ha : a.IsNormal := ⟨by decide, by decide, by decide, by decide⟩
  have hb : b.IsNormal := ⟨by decide, by decide, by decide, by decide⟩
  have less : a.compare b = .lt := by decide +kernel
  have hundred : checkedMul a b = .ok ⟨-1, -2⟩ := by decide +kernel
  obtain ⟨_, _, _, _, product, _, order, _⟩ := arithmetic_exact ha hb
  have value : (⟨-1, -2⟩ : Decimal).toRat = -100 := by norm_num [toRat]
  rw [less, eq_comm, cmp_eq_lt_iff] at order
  exact ⟨ha, hb, less, order, hundred, (product _ hundred).symm.trans value⟩

end TemplateExpr.Decimal
