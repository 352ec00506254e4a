import TemplateExpr.Error
import TemplateExpr.Proofs.Decimal.ExactQuotients
import TemplateExpr.Proofs.Decimal.Powers
/-!
Powers without a limit on digits. With a positive exponent the digits are a power and the scale is a multiple, so that
nothing but the scale is in the way; with a negative one this power is divided into one.
-/
namespace TemplateExpr.Decimal

variable {b m : Decimal} {math : MathSettings} {fault : ArithmeticFault}

theorem fitsSigned_scale (normal : b.IsNormal) {n : ℕ} (few : n ≤ maxExponent) : FitsSigned 64 (b.scale * n) := by
  have bound : |b.scale| ≤ 2147483648 := by
    have := normal.minScale_le
    have := normal.le_maxScale
    rw [minScale, maxScale] at *
    rw [abs_le]
    omega
  have product : |b.scale * n| ≤ 2147483648 * 999999999 := by
    rw [abs_mul, Nat.abs_cast]
    exact mul_le_mul bound (by exact_mod_cast few) (Nat.cast_nonneg n) (by norm_num)
  rw [fitsSigned_64_iff]
  rw [abs_le] at product
  omega

theorem leavesRange_pow (normal : b.IsNormal) {n : ℕ} (positive : 0 < n)
    (out : ¬ (minScale ≤ b.scale * n ∧ b.scale * n ≤ maxScale)) : LeavesRange (b.toRat ^ n) := by
  have nonzero : b.unscaled ≠ 0 := by
    intro zero
    rw [normal.scale_of_zero zero, zero_mul] at out
    exact out (by decide)
  obtain ⟨m, scale, last, value⟩ := exists_stripped (hasPlaces_toRat b) (unscaled_eq_zero_iff.not.mp nonzero)
  obtain ⟨zeros, padded, place⟩ := eq_padded value last
  refine ⟨scale * n, ⟨m ^ n, by rw [value, pow_scaled], fun zero => ?_, fun _ => pow_emod_ten last n⟩, ?_⟩
  · have := pow_emod_ten last n
    omega
  rcases Nat.eq_zero_or_pos zeros with rfl | some
  · rw [Nat.cast_zero, add_zero] at place
    rw [← place]
    omega
  · -- only the least scale leaves trailing zeros, and any of its multiples is below it
    obtain ⟨fewer, rfl⟩ : ∃ fewer, zeros = fewer + 1 := ⟨zeros - 1, by omega⟩
    have ten : b.unscaled % 10 = 0 := by
      rw [padded, tenPow_succ, Nat.cast_mul, ← mul_assoc]
      exact Int.mul_emod_left _ 10
    have least := normal.stripped nonzero ten
    left
    calc
      scale * n ≤ scale * 1 := by
        rw [minScale] at least
        exact mul_le_mul_of_nonpos_left (by exact_mod_cast positive) (by omega)
      _ = scale := mul_one scale
      _ < minScale := by omega

theorem powNatural_exact (normal : b.IsNormal) (unlimited : math.precision = 0) {n : ℕ} (positive : 0 < n)
    (few : n ≤ maxExponent) :
    (∃ r, powNatural b n math = .ok r ∧ r.toRat = b.toRat ^ n) ∨
      powNatural b n math = .error .scaleOutOfRange ∧ LeavesRange (b.toRat ^ n) := by
  have value : ((b.unscaled.pow n : ℤ) : ℚ) * 10 ^ (-(b.scale * n)) = b.toRat ^ n := by
    rw [toRat_eq, pow_scaled]
    rfl
  have small : n % twoPow 32 = n := Nat.mod_eq_of_lt (lt_of_le_of_lt few (by decide))
  rw [powNatural, if_pos unlimited, wrapSigned_natCast few, small]
  dsimp only
  rw [if_neg (not_not.mpr (fitsSigned_scale normal few))]
  split
  · cases result : checked (b.unscaled.pow n) (b.scale * n) with
    | ok r => exact .inl ⟨r, rfl, (toRat_checked result).trans value⟩
    | error fault =>
      obtain ⟨rfl, leaves⟩ := leavesRange_of_refused result
      rw [value] at leaves
      exact .inr ⟨rfl, leaves⟩
  · rename_i out
    exact .inr ⟨rfl, leavesRange_pow normal positive out⟩

theorem inverse_fails (normal : m.IsNormal) (nonzero : m.unscaled ≠ 0) {result : Except ArithmeticFault Decimal}
    (dividing : Dividing one m result) (failed : result = .error fault) (finite : fault ≠ .nonTerminating) :
    fault = .scaleOutOfRange ∧ LeavesRange (one.toRat / m.toRat) := by
  obtain ⟨rfl, leaves | ⟨places, beyond, _, stripped⟩⟩ := dividing.fails nonzero failed finite
  · exact ⟨rfl, leaves⟩
  · refine ⟨rfl, _, stripped, .inr ?_⟩
    have := normal.le_maxScale
    have integer : one.scale = 0 := rfl
    rw [maxShift] at beyond
    rw [maxScale] at *
    omega

inductive Powering (b : Decimal) (n : ℤ) : Except ArithmeticFault Decimal → Prop where
  | exact {r : Decimal} (value : r.toRat = b.toRat ^ n) (defined : b.IsZero → 0 < n) : Powering b n (.ok r)
  | undefined (zero : b.IsZero) (below : n < 0) : Powering b n (.error .divisionByZero)
  | endless (below : n < 0) (never : ¬ FiniteExpansion (b.toRat ^ n)) : Powering b n (.error .nonTerminating)
  | beyond (leaves : LeavesRange (b.toRat ^ n.natAbs) ∨ LeavesRange (b.toRat ^ n)) :
      Powering b n (.error .scaleOutOfRange)

theorem powering_inverse {n : ℤ} (below : n < 0) (normal : m.IsNormal) (magnitude : m.toRat = b.toRat ^ n.natAbs)
    (unlimited : math.precision = 0) : Powering b n (div one m math) := by
  by_cases zero : b.IsZero
  · have none : m.IsZero := by
      apply unscaled_eq_zero_iff.mpr
      rw [magnitude, unscaled_eq_zero_iff.mp zero, zero_pow (by omega)]
    rw [div, if_pos none]
    exact .undefined zero below
  · have nonzero : ¬ m.IsZero := by
      apply unscaled_eq_zero_iff.not.mpr
      rw [magnitude]
      exact pow_ne_zero _ (unscaled_eq_zero_iff.not.mp zero)
    have inverse : one.toRat / m.toRat = b.toRat ^ n := by
      obtain ⟨k, rfl⟩ : ∃ k : ℕ, n = -k := ⟨n.natAbs, by omega⟩
      rw [toRat_one, magnitude, Int.natAbs_neg, Int.natAbs_natCast, one_div, zpow_neg, zpow_natCast]
    have dividing : Dividing one m (div one m math) := dividing_div nonzero unlimited
    cases result : div one m math with
    | ok q => exact .exact ((dividing.exact result).trans inverse) fun none => absurd none zero
    | error fault =>
      by_cases endless : fault = .nonTerminating
      · rw [endless] at result ⊢
        have never := (dividing.endless_iff nonzero).mp result
        rw [inverse] at never
        exact .endless below never
      · obtain ⟨rfl, leaves⟩ := inverse_fails normal nonzero dividing result endless
        rw [inverse] at leaves
        exact .beyond (.inr leaves)

theorem powering_pow (normal : b.IsNormal) (unlimited : math.precision = 0) {n : ℤ} (some : n ≠ 0)
    (few : n.natAbs ≤ maxExponent) : Powering b n (pow b (ofInt n) math) := by
  rw [pow_ofInt few, if_neg some]
  rcases powNatural_exact normal unlimited (Int.natAbs_pos.mpr some) few with ⟨m, done, magnitude⟩ | ⟨refused, leaves⟩
  · rw [done]
    change Powering b n (if 0 < n then .ok m else div one m math)
    split
    · rename_i above
      obtain ⟨k, rfl⟩ := Int.eq_ofNat_of_zero_le above.le
      exact .exact (by rw [magnitude, Int.natAbs_natCast, zpow_natCast]) fun _ => above
    · exact powering_inverse (by omega) (normalizes_powNatural _ _ _ m done) magnitude unlimited
  · rw [refused]
    exact .beyond (.inl leaves)

section Powering

variable {n : ℤ} {result : Except ArithmeticFault Decimal}

theorem not_leavesRange_zero : ¬ LeavesRange 0 := by
  rintro ⟨scale, ⟨m, value, zero, _⟩, out⟩
  have none : m = 0 := by
    rwa [eq_comm, mul_eq_zero_iff_right (ten_zpow_pos _).ne', Int.cast_eq_zero] at value
  rw [zero none, minScale, maxScale] at out
  omega

theorem Powering.value (powering : Powering b n result) {r : Decimal} (done : result = .ok r) :
    r.toRat = b.toRat ^ n := by
  cases powering with
  | exact value =>
    cases done
    exact value
  | undefined | endless | beyond => cases done

theorem Powering.zero_divides (powering : Powering b n result) (zero : b.IsZero) (below : n < 0) :
    result = .error .divisionByZero := by
  have none : b.toRat = 0 := unscaled_eq_zero_iff.mp zero
  cases powering with
  | exact _ defined => exact absurd (defined zero) (by omega)
  | undefined => rfl
  | endless _ never =>
    rw [none, zero_zpow n below.ne] at never
    exact absurd finiteExpansion_zero never
  | beyond leaves =>
    rw [none, zero_zpow n below.ne, zero_pow (by omega), or_self] at leaves
    exact absurd leaves not_leavesRange_zero

theorem Powering.endless_fails (powering : Powering b n result) (below : n < 0)
    (never : ¬ FiniteExpansion (b.toRat ^ n)) :
    result = .error .nonTerminating ∨ result = .error .scaleOutOfRange ∧ LeavesRange (b.toRat ^ n.natAbs) := by
  cases powering with
  | @exact r value => exact absurd ⟨_, value ▸ hasPlaces_toRat r⟩ never
  | undefined zero =>
    rw [unscaled_eq_zero_iff.mp zero, zero_zpow n below.ne] at never
    exact absurd finiteExpansion_zero never
  | endless => exact .inl rfl
  | beyond leaves =>
    exact .inr ⟨rfl, leaves.resolve_right fun power => never (finiteExpansion_of_leavesRange power)⟩

theorem Powering.fails (powering : Powering b n result) (failed : result = .error fault)
    (defined : ¬ (b.IsZero ∧ n < 0)) (finite : n < 0 → FiniteExpansion (b.toRat ^ n)) :
    fault = .scaleOutOfRange ∧ (LeavesRange (b.toRat ^ n.natAbs) ∨ LeavesRange (b.toRat ^ n)) := by
  cases powering with
  | exact => cases failed
  | undefined zero below => exact absurd ⟨zero, below⟩ defined
  | endless below never => exact absurd (finite below) never
  | beyond leaves =>
    cases failed
    exact ⟨rfl, leaves⟩

end Powering

def FailsWith (result : Except ArithmeticFault Decimal) (message : String) : Prop :=
  ∃ fault, result = .error fault ∧ fault.message = message

/-- Without a limit on digits, a quotient that comes out is the quotient itself, and it is refused as endless exactly if
no number of places is enough; the loops that decide about this end. A power that comes out is the power itself. What
fails otherwise leaves the range of scales, or needs more zeros than there may be. -/
theorem unlimited_exact {a : Decimal} (normal : a.IsNormal) (unlimited : math.precision = 0) :
    (∀ b : Decimal, ¬ b.IsZero →
      (∀ q, div a b math = .ok q → q.toRat * b.toRat = a.toRat) ∧
      (FailsWith (div a b math) "non-terminating decimal expansion" ↔ ¬ FiniteExpansion (a.toRat / b.toRat)) ∧
      (∀ fault, div a b math = .error fault → FiniteExpansion (a.toRat / b.toRat) →
        fault = .scaleOutOfRange ∧ (LeavesRange (a.toRat / b.toRat) ∨ maxShift < b.unscaled.natAbs.log2)) ∧
      ∃ twos odd fives rest, removeFactor 2 (denominator a b) = (twos, odd) ∧ removeFactor 5 odd = (fives, rest) ∧
        Removes 2 (denominator a b) twos odd ∧ Removes 5 odd fives rest) ∧
    ∀ n : ℤ, n ≠ 0 → n.natAbs ≤ maxExponent →
      (∀ r, pow a (ofInt n) math = .ok r → r.toRat = a.toRat ^ n) ∧
      (a.IsZero → n < 0 → FailsWith (pow a (ofInt n) math) "division by zero") ∧
      (n < 0 → ¬ FiniteExpansion (a.toRat ^ n) →
        FailsWith (pow a (ofInt n) math) "non-terminating decimal expansion" ∨
          pow a (ofInt n) math = .error .scaleOutOfRange ∧ LeavesRange (a.toRat ^ n.natAbs)) ∧
      ∀ fault, pow a (ofInt n) math = .error fault → ¬ (a.IsZero ∧ n < 0) →
        (n < 0 → FiniteExpansion (a.toRat ^ n)) →
        fault = .scaleOutOfRange ∧ (LeavesRange (a.toRat ^ n.natAbs) ∨ LeavesRange (a.toRat ^ n)) := by
  refine ⟨fun b nonzero => ?_, fun n some few => ?_⟩
  · have dividing : Dividing a b (div a b math) := dividing_div nonzero unlimited
    refine ⟨fun q done => ?_, ?_, fun fault failed finite => ?_, factors_counted nonzero⟩
    · rw [dividing.exact done]
      exact div_mul_cancel₀ _ (unscaled_eq_zero_iff.not.mp nonzero)
    · rw [← dividing.endless_iff nonzero]
      constructor
      · rintro ⟨fault, failed, message⟩
        by_contra other
        obtain ⟨rfl, _⟩ := dividing.fails nonzero failed fun endless => other (endless ▸ failed)
        exact absurd message (by decide)
      · intro failed
        exact ⟨_, failed, rfl⟩
    · have ends : fault ≠ .nonTerminating := fun endless =>
        (dividing.endless_iff nonzero).mp (endless ▸ failed) finite
      obtain ⟨range, leaves | ⟨places, beyond, within, _⟩⟩ := dividing.fails nonzero failed ends
      · exact ⟨range, .inl leaves⟩
      · exact ⟨range, .inr (beyond.trans_le within)⟩
  · have powering := powering_pow normal unlimited some few
    refine ⟨fun r => powering.value, fun zero below => ?_, fun below never => ?_, fun fault => powering.fails⟩
    · exact ⟨_, powering.zero_divides zero below, rfl⟩
    · rcases powering.endless_fails below never with endless | range
      · exact .inl ⟨_, endless, rfl⟩
      · exact .inr range

/-- Five halves divided by eight and inverted as a square, and divided by three. -/
theorem unlimited_exact_halves :
    let a : Decimal := ⟨25, 1⟩
    let math : MathSettings := ⟨0, .halfEven⟩
    a.IsNormal ∧ div a ⟨8, 0⟩ math = .ok ⟨3125, 4⟩ ∧ (⟨3125, 4⟩ : Decimal).toRat * (⟨8, 0⟩ : Decimal).toRat = a.toRat ∧
      div a ⟨3, 0⟩ math = .error .nonTerminating ∧ ¬ FiniteExpansion (a.toRat / (⟨3, 0⟩ : Decimal).toRat) ∧
      pow a (ofInt (-2)) math = .ok ⟨16, 2⟩ ∧ (⟨16, 2⟩ : Decimal).toRat = a.toRat ^ (-2 : ℤ) := by
  intro a math
  have normal : a.IsNormal := ⟨by decide, by decide, by decide, by decide⟩
  have eighth : div a ⟨8, 0⟩ math = .ok ⟨3125, 4⟩ := by decide +kernel
  have third : div a ⟨3, 0⟩ math = .error .nonTerminating := by decide +kernel
  have square : pow a (ofInt (-2)) math = .ok ⟨16, 2⟩ := by decide +kernel
  obtain ⟨quotients, powers⟩ := unlimited_exact normal (show math.precision = 0 from rfl)
  exact ⟨normal, eighth, (quotients ⟨8, 0⟩ (by decide)).1 _ eighth, third,
    (quotients ⟨3, 0⟩ (by decide)).2.1.mp ⟨_, third, rfl⟩, square, (powers (-2) (by decide) (by decide)).1 _ square⟩

end TemplateExpr.Decimal
