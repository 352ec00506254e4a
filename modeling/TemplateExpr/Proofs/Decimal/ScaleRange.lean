import TemplateExpr.Proofs.Decimal.Rounding
import TemplateExpr.Proofs.Numeral.Readers
/-!
The check of the scale. Trailing zeros move into the scale until it is the least one, and none are ever put behind the
digits. So digits at a scale below the least one are refused, unless they are zero, and from there on only the number
decides: it is accepted if its scale without trailing zeros is not too large, and it has one decimal.
-/
namespace TemplateExpr

namespace Decimal

/-- Zero, or digits at a scale that is not below the least one. -/
def Roomy (unscaled scale : ℤ) : Prop := unscaled = 0 ∨ minScale ≤ scale

instance (unscaled scale : ℤ) : Decidable (Roomy unscaled scale) :=
  inferInstanceAs (Decidable (unscaled = 0 ∨ minScale ≤ scale))

variable {unscaled scale : ℤ} {d : Decimal}

theorem unscaled_eq_zero_iff : d.unscaled = 0 ↔ d.toRat = 0 := by
  rw [toRat_eq, mul_eq_zero_iff_right (ten_zpow_pos _).ne', Int.cast_eq_zero]

theorem scale_le_of_normal (normal : d.IsNormal) (nonzero : unscaled ≠ 0) (above : minScale ≤ scale)
    (value : d.toRat = unscaled * 10 ^ (-scale)) : d.scale ≤ scale := by
  by_cases last : d.unscaled % 10 = 0
  · have some : d.unscaled ≠ 0 := by
      rw [Ne, unscaled_eq_zero_iff, value, mul_eq_zero_iff_right (ten_zpow_pos _).ne', Int.cast_eq_zero]
      exact nonzero
    rw [normal.stripped some last]
    exact above
  · obtain ⟨zeros, _, place⟩ := eq_padded value.symm last
    omega

theorem toRat_zero : zero.toRat = 0 := by norm_num [toRat, zero]

theorem checked_zero (scale : ℤ) : checked 0 scale = .ok zero := by
  rw [checked, normalize_zero]
  rfl

theorem checked_eq_ok_iff :
    checked unscaled scale = .ok d ↔
      d.IsNormal ∧ d.toRat = unscaled * 10 ^ (-scale) ∧ Roomy unscaled scale := by
  constructor
  · intro done
    refine ⟨isNormal_checked done, toRat_checked done, ?_⟩
    obtain ⟨rfl, low, _⟩ := checked_eq_ok done
    by_cases zero : unscaled = 0
    · exact .inl zero
    · obtain ⟨zeros, _, place, _, _⟩ := normalize_strips scale zero
      exact .inr (by omega)
  · rintro ⟨normal, value, roomy⟩
    rcases eq_or_ne unscaled 0 with rfl | nonzero
    · rw [Int.cast_zero, zero_mul] at value
      have none : d = zero := toRat_injective normal (isNormal_ofInt 0) (value.trans toRat_zero.symm)
      rw [checked_zero, none]
    · have fits := scale_le_of_normal normal nonzero (roomy.resolve_left nonzero) value
      obtain ⟨zeros, rfl⟩ := Int.le.dest fits
      rw [toRat_of_scale_le fits, add_sub_cancel_left, Int.toNat_natCast,
        mul_left_inj' (ten_zpow_pos _).ne', Int.cast_inj] at value
      rw [← value]
      exact checked_padded normal zeros

theorem checked_ok_or_error (unscaled scale : ℤ) :
    (∃ d, checked unscaled scale = .ok d) ∨ checked unscaled scale = .error .scaleOutOfRange := by
  rw [checked]
  split
  · exact .inl ⟨_, rfl⟩
  · exact .inr rfl

theorem checked_congr {u s v t : ℤ} (same : (u : ℚ) * 10 ^ (-s) = v * 10 ^ (-t)) (sides : Roomy u s ↔ Roomy v t) :
    checked u s = checked v t := by
  rcases checked_ok_or_error u s with ⟨d, done⟩ | refused
  · rw [done]
    symm
    rwa [checked_eq_ok_iff, ← same, ← sides, ← checked_eq_ok_iff]
  · rcases checked_ok_or_error v t with ⟨d, done⟩ | refused'
    · rw [checked_eq_ok_iff, ← same, ← sides, ← checked_eq_ok_iff, refused] at done
      cases done
    · rw [refused, refused']

theorem exists_normal_of_scaleOf {x : ℚ} (stripped : ScaleOf x scale) (high : scale ≤ maxScale) :
    ∃ d : Decimal, d.IsNormal ∧ d.toRat = x := by
  obtain ⟨m, rfl, _⟩ := stripped
  have room : scale ≤ max scale minScale := le_max_left _ _
  have normal : (normalize (m * tenPow (max scale minScale - scale).toNat) (max scale minScale)).IsNormal :=
    isNormal_normalize (le_max_right _ _) (max_le high (by decide))
  refine ⟨_, normal, ?_⟩
  rw [toRat_normalize, ← @toRat_of_scale_le ⟨m, scale⟩ _ room, toRat_eq]

theorem scaleOf_le_maxScale {x : ℚ} (normal : d.IsNormal) (value : d.toRat = x) (stripped : ScaleOf x scale) :
    scale ≤ maxScale := by
  obtain ⟨m, rfl, zero, last⟩ := stripped
  rcases eq_or_ne m 0 with none | nonzero
  · rw [zero none]
    decide
  · obtain ⟨zeros, _, place⟩ := eq_padded value (last nonzero)
    have := normal.le_maxScale
    omega

theorem checked_ok_iff {least : ℤ} (stripped : ScaleOf (unscaled * 10 ^ (-scale)) least) :
    (∃ d, checked unscaled scale = .ok d) ↔ Roomy unscaled scale ∧ least ≤ maxScale := by
  constructor
  · rintro ⟨d, done⟩
    obtain ⟨normal, value, roomy⟩ := checked_eq_ok_iff.mp done
    exact ⟨roomy, scaleOf_le_maxScale normal value stripped⟩
  · rintro ⟨roomy, high⟩
    obtain ⟨d, normal, value⟩ := exists_normal_of_scaleOf stripped high
    exact ⟨d, checked_eq_ok_iff.mpr ⟨normal, value, roomy⟩⟩

/-! ### Texts -/

section Texts

open Numeral

/-- A decimal literal without separators that has these digits at this scale. Its exponent and the scale are integers of
64 bits. -/
def IsSpelling (text : String) (unscaled scale : ℤ) : Prop :=
  ∃ sign m e, Bare m e ∧ Literal.chars ⟨sign, .decimal m e⟩ = text.toList ∧ ExponentFits e ∧ FitsSigned 64 scale ∧
    unscaled = Literal.unscaled sign m ∧ scale = m.size - exponentPower e

variable {text : String}

theorem ofText?_eq_some_iff :
    ofText? text = some d ↔ ∃ unscaled scale, IsSpelling text unscaled scale ∧ checked unscaled scale = .ok d := by
  rw [ofText?, ofChars?_eq_some_iff]
  constructor
  · rintro ⟨sign, m, e, bare, chars, fits, range, done⟩
    exact ⟨_, _, ⟨sign, m, e, bare, chars, fits, range, rfl, rfl⟩, done⟩
  · rintro ⟨_, _, ⟨sign, m, e, bare, chars, fits, range, rfl, rfl⟩, done⟩
    exact ⟨sign, m, e, bare, chars, fits, range, done⟩

theorem isSpelling_unique {u s v t : ℤ} (first : IsSpelling text u s) (second : IsSpelling text v t) :
    u = v ∧ s = t := by
  obtain ⟨sign, m, e, _, chars, _, _, rfl, rfl⟩ := first
  obtain ⟨sign', m', e', _, chars', _, _, rfl, rfl⟩ := second
  have same := literal_chars_injective (chars.trans chars'.symm)
  cases same
  exact ⟨rfl, rfl⟩

theorem ofText?_of_isSpelling (spelling : IsSpelling text unscaled scale) :
    ofText? text = (checked unscaled scale).toOption := by
  rcases checked_ok_or_error unscaled scale with ⟨d, done⟩ | refused
  · rw [done]
    exact ofText?_eq_some_iff.mpr ⟨_, _, spelling, done⟩
  · rw [refused]
    cases read : ofText? text with
    | none => rfl
    | some d =>
      obtain ⟨u, s, other, done⟩ := ofText?_eq_some_iff.mp read
      obtain ⟨rfl, rfl⟩ := isSpelling_unique spelling other
      rw [refused] at done
      cases done

end Texts

/-- Two ways to write a number, with both scales below the least one or none of them, are accepted as the same decimal
or both refused; so are two products and two spellings of a number. Below the least scale only zero is accepted, and
from there on everything whose scale without trailing zeros is not too large. -/
theorem checked_by_number :
    (∀ u s v t : ℤ, (u : ℚ) * 10 ^ (-s) = v * 10 ^ (-t) → (Roomy u s ↔ Roomy v t) → checked u s = checked v t) ∧
    (∀ u s least : ℤ, ScaleOf (u * 10 ^ (-s)) least →
      ((∃ d, checked u s = .ok d) ↔ Roomy u s ∧ least ≤ maxScale)) ∧
    (∀ a b c d : Decimal, a.toRat * b.toRat = c.toRat * d.toRat →
      (Roomy (a.unscaled * b.unscaled) (a.scale + b.scale) ↔ Roomy (c.unscaled * d.unscaled) (c.scale + d.scale)) →
      checkedMul a b = checkedMul c d) ∧
    ∀ text text' u s v t, IsSpelling text u s → IsSpelling text' v t → (u : ℚ) * 10 ^ (-s) = v * 10 ^ (-t) →
      (Roomy u s ↔ Roomy v t) → ofText? text = ofText? text' := by
  refine ⟨fun u s v t => checked_congr, fun u s least => checked_ok_iff, ?_, ?_⟩
  · intro a b c d same sides
    exact checked_congr (by rw [toRat_product, toRat_product, same]) sides
  · intro text text' u s v t spelling spelling' same sides
    rw [ofText?_of_isSpelling spelling, ofText?_of_isSpelling spelling', checked_congr same sides]

/-- Trailing zeros bring a scale back into range, and an exponent stands for a zero. -/
theorem checked_by_number_zeros :
    ((100 : ℤ) : ℚ) * 10 ^ (-(maxScale + 2)) = (1 : ℤ) * 10 ^ (-maxScale) ∧
    (Roomy 100 (maxScale + 2) ↔ Roomy 1 maxScale) ∧ checked 100 (maxScale + 2) = checked 1 maxScale ∧
    IsSpelling "10" 10 0 ∧ IsSpelling "1e1" 1 (-1) ∧ ofText? "10" = ofText? "1e1" := by
  have value : ((100 : ℤ) : ℚ) * 10 ^ (-(maxScale + 2)) = (1 : ℤ) * 10 ^ (-maxScale) := by
    rw [neg_add_rev, zpow_add₀ (by norm_num), ← mul_assoc]
    norm_num
  have sides : Roomy 100 (maxScale + 2) ↔ Roomy 1 maxScale := by decide
  have ten : IsSpelling "10" 10 0 := by
    refine ⟨.none, .whole ['1', '0'] (.next rfl (.last rfl)), none, bare_none ?_, rfl, fits_none, ?_⟩
    · simp [Numeral.Mantissa.digits, Numeral.Mantissa.places]
    · decide
  have power : IsSpelling "1e1" 1 (-1) := by
    refine ⟨.none, .whole ['1'] (.last rfl), some ⟨'e', .none, ['1'], .inl rfl, .last rfl⟩, ?_, rfl, ?_, by decide⟩
    · simp [Numeral.Bare, Numeral.Mantissa.digits, Numeral.Mantissa.places]
    · rintro e ⟨⟩
      decide
  obtain ⟨digits, _, _, texts⟩ := checked_by_number
  exact ⟨value, sides, digits _ _ _ _ value sides, ten, power,
    texts _ _ _ _ _ _ ten power (by norm_num) (by decide)⟩

/-- A number, two factorisations and two spellings of it, and two spellings of zero, of which only one is accepted. -/
theorem checked_refuses_unpadded :
    ((1 : ℤ) : ℚ) * 10 ^ (-(minScale - 1)) = (10 : ℤ) * 10 ^ (-minScale) ∧
    checked 1 (minScale - 1) = .error .scaleOutOfRange ∧ checked 10 minScale = .ok ⟨10, minScale⟩ ∧
    checkedMul ⟨1, minScale⟩ ⟨1, -1⟩ = .error .scaleOutOfRange ∧
    checkedMul ⟨10, minScale⟩ ⟨1, 0⟩ = .ok ⟨10, minScale⟩ ∧
    ofText? "1e2147483649" = none ∧ ofText? "10e2147483648" = some ⟨10, minScale⟩ ∧
    ofText? "0e9223372036854775808" = none ∧ ofText? "0e0" = some zero := by
  refine ⟨?_, by decide +kernel, by decide +kernel, by decide +kernel, by decide +kernel, by decide +kernel,
    by decide +kernel, by decide +kernel, by decide +kernel⟩
  rw [neg_sub, sub_eq_neg_add, zpow_add₀ (by norm_num), zpow_one, Int.cast_one, one_mul, mul_comm, Int.cast_ofNat]

end Decimal

end TemplateExpr
