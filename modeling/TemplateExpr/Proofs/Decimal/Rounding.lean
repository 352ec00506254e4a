import TemplateExpr.Proofs.Decimal.Integers
import TemplateExpr.Proofs.Decimal.SignificantDigits
import Mathlib.RingTheory.Multiplicity
/-!
Rounding of decimals is correct. To drop digits is to take the number, in units of the last place that is kept, to
an integer that the mode takes it to; this holds for a number of places and for a number of significant digits, and
also if a part of the number behind its last digit has been lost before.
-/
namespace TemplateExpr

namespace Decimal

/-- The scale of a number that is written without trailing zeros. -/
def ScaleOf (x : ℚ) (scale : ℤ) : Prop :=
  ∃ n : ℤ, x = n * 10 ^ (-scale) ∧ (n = 0 → scale = 0) ∧ (n ≠ 0 → n % 10 ≠ 0)

/-- What is to come of rounding `x` to so many places. -/
inductive Rounding (mode : RoundingMode) (x : ℚ) (place : ℤ) : Except ArithmeticFault Decimal → Prop where
  | taken {n : ℤ} (takes : mode.Takes (x * 10 ^ place) n) : Rounding mode x place (checked n place)
  | refused (unnecessary : mode = .unnecessary) (inexact : ∀ n : ℤ, x * 10 ^ place ≠ n) :
      Rounding mode x place (.error .roundingNecessary)

variable {mode : RoundingMode} {x : ℚ} {place : ℤ}

theorem cutsTo_self (m : ℤ) : CutsTo (m < 0) m m false := by
  unfold CutsTo
  split
  · rename_i negative
    have below := of_decide_eq_true negative
    rw [← Int.cast_neg]
    exact Cut.self (by omega)
  · rename_i positive
    exact Cut.self (not_lt.mp (mt decide_eq_true positive))

theorem tdiv_beyond {m : ℤ} {drop : ℕ} (beyond : digitCount m < drop) :
    m.tdiv (tenPow drop) = 0 ∧ m.tmod (tenPow drop) = m ∧ m.natAbs * 2 < tenPow drop := by
  obtain ⟨more, rfl⟩ := Nat.exists_eq_add_of_lt beyond
  have bound := lt_tenPow_digitCount m
  have larger : tenPow (digitCount m) * 10 ≤ tenPow (digitCount m + more + 1) := by
    rw [tenPow_succ, tenPow_add]
    exact Nat.mul_le_mul_right 10 (Nat.le_mul_of_pos_right _ (tenPow_pos more))
  have none : m.tdiv (tenPow (digitCount m + more + 1)) = 0 := by
    rw [← Int.natAbs_eq_zero, Int.natAbs_tdiv, Int.natAbs_natCast]
    exact Nat.div_eq_of_lt (by omega)
  have parts := Int.mul_tdiv_add_tmod m (tenPow (digitCount m + more + 1))
  rw [none, mul_zero, zero_add] at parts
  exact ⟨none, parts, by omega⟩

theorem dropping_eq (unscaled : ℤ) (drop : ℕ) (tie : Ordering) :
    (if digitCount unscaled < drop then 0 else unscaled.tdiv (tenPow drop)) = unscaled.tdiv (tenPow drop) ∧
    (if digitCount unscaled < drop then unscaled else unscaled.tmod (tenPow drop)) = unscaled.tmod (tenPow drop) ∧
    (if digitCount unscaled < drop then .lt
      else (Ord.compare ((unscaled.tmod (tenPow drop)).natAbs * 2) (tenPow drop)).then tie) =
        (Ord.compare ((unscaled.tmod (tenPow drop)).natAbs * 2) (tenPow drop)).then tie := by
  by_cases beyond : digitCount unscaled < drop
  · obtain ⟨none, all, less⟩ := tdiv_beyond beyond
    rw [if_pos beyond, if_pos beyond, if_pos beyond, none, all, compare_lt_iff_lt.mpr less]
    exact ⟨rfl, rfl, rfl⟩
  · rw [if_neg beyond, if_neg beyond, if_neg beyond]
    exact ⟨rfl, rfl, rfl⟩

theorem scaled_dropping (y : ℚ) (scale : ℤ) (drop : ℕ) :
    y * 10 ^ (-scale) * 10 ^ (scale - drop) = y / tenPow drop := by
  have exponent : -scale + (scale - drop) = -(drop : ℤ) := by omega
  rw [mul_assoc, ← zpow_add₀ (by norm_num), exponent, zpow_neg, zpow_natCast, cast_tenPow, div_eq_mul_inv]

/-- Dropping digits of `unscaled`, which is what is left of `y`, rounds `y * 10 ^ (-scale)`. -/
theorem rounding_roundDropping {y : ℚ} {unscaled : ℤ} {sticky : Bool}
    (cut : CutsTo (unscaled < 0) y unscaled sticky) (scale : ℤ) (drop : ℕ) (behind : sticky = true → 0 < drop)
    (mode : RoundingMode) :
    Rounding mode (y * 10 ^ (-scale)) (scale - drop) (roundDropping unscaled scale drop sticky mode) := by
  have scaled := scaled_dropping y scale drop
  have further := cut.divided (tenPow_pos drop)
  obtain ⟨kept, rest, half⟩ := dropping_eq unscaled drop (if sticky then .gt else .eq)
  unfold roundDropping
  dsimp only
  rw [kept, rest, half]
  split
  · rename_i whole
    have nothing : (sticky || unscaled.tmod (tenPow drop) != 0) = false := by simpa using whole
    rw [nothing] at further
    refine .taken ?_
    rw [scaled, further.exact]
    exact mode.takes_self _
  · rename_i part
    have inexact : (sticky || unscaled.tmod (tenPow drop) != 0) = true := by simpa [imp_iff_or_not, or_comm] using part
    rw [inexact] at further
    split
    · rename_i refuses
      refine .refused (RoundingMode.bumps?_eq_none_iff.mp refuses) fun n => ?_
      rw [scaled]
      exact further.not_integer n
    · rename_i stays
      have takes := cut.takes behind inexact stays
      rw [if_neg Bool.false_ne_true] at takes
      refine .taken ?_
      rw [scaled]
      exact takes
    · rename_i moves
      have takes := cut.takes behind inexact moves
      simp only [if_true, decide_eq_true_eq] at takes
      refine .taken ?_
      rw [scaled]
      exact takes

/-! ### The scale of a result -/

theorem toRat_eq (d : Decimal) : d.toRat = d.unscaled * 10 ^ (-d.scale) := rfl

theorem eq_padded {m n scale place : ℤ} (same : (n : ℚ) * 10 ^ (-place) = m * 10 ^ (-scale)) (last : m % 10 ≠ 0) :
    ∃ zeros : ℕ, n = m * tenPow zeros ∧ place = scale + zeros := by
  rcases le_or_gt scale place with fewer | more
  · have value := scaled_eq_iff.mpr same.symm
    rw [← toRat_eq ⟨m, scale⟩, ← scaled_eq _ fewer] at value
    exact ⟨(place - scale).toNat, by exact_mod_cast value.symm, by omega⟩
  · have value := scaled_eq_iff.mpr same
    rw [← toRat_eq ⟨n, place⟩, ← scaled_eq _ more.le] at value
    have value : n * tenPow (scale - place).toNat = m := by exact_mod_cast value
    obtain ⟨k, zeros⟩ : ∃ k, (scale - place).toNat = k + 1 := ⟨(scale - place).toNat - 1, by omega⟩
    rw [← value, zeros, tenPow_succ, Nat.cast_mul, ← mul_assoc] at last
    exact absurd (Int.mul_emod_left _ 10) last

theorem exists_stripped (decimal : HasPlaces place x) (nonzero : x ≠ 0) :
    ∃ m scale : ℤ, m % 10 ≠ 0 ∧ x = m * 10 ^ (-scale) := by
  obtain ⟨n, rfl⟩ := decimal
  have some : n ≠ 0 := by
    rintro rfl
    simp at nonzero
  have finite : FiniteMultiplicity 10 n := Int.finiteMultiplicity_iff.mpr ⟨by decide, some⟩
  obtain ⟨m, value, last⟩ := finite.exists_eq_pow_mul_and_not_dvd
  generalize multiplicity 10 n = zeros at value
  refine ⟨m, place - zeros, by omega, ?_⟩
  rw [value, neg_sub, zpow_sub₀ (by norm_num), zpow_neg, zpow_natCast]
  push_cast
  ring

theorem exists_scaleOf (decimal : HasPlaces place x) : ∃ scale, ScaleOf x scale := by
  rcases eq_or_ne x 0 with rfl | nonzero
  · exact ⟨0, 0, by norm_num, fun _ => rfl, fun nonzero => absurd rfl nonzero⟩
  · obtain ⟨m, scale, last, rfl⟩ := exists_stripped decimal nonzero
    refine ⟨scale, m, rfl, fun zero => ?_, fun _ => last⟩
    rw [zero] at last
    exact absurd rfl last

theorem checked_of_scaleOf {n place scale : ℤ} (stripped : ScaleOf (n * 10 ^ (-place)) scale)
    (low : minScale ≤ scale) (high : scale ≤ maxScale) : ∃ r, checked n place = .ok r := by
  obtain ⟨m, same, zero, last⟩ := stripped
  rcases eq_or_ne m 0 with rfl | nonzero
  · rw [Int.cast_zero, zero_mul, mul_eq_zero_iff_right (ten_zpow_pos _).ne'] at same
    have none : n = 0 := by exact_mod_cast same
    exact ⟨⟨0, 0⟩, by rw [none]; rfl⟩
  · obtain ⟨zeros, rfl, rfl⟩ := eq_padded same (last nonzero)
    have normal : (⟨m, scale⟩ : Decimal).IsNormal :=
      ⟨fun none => absurd none nonzero, low, high, fun _ divides => absurd divides (last nonzero)⟩
    exact ⟨_, checked_padded normal zeros⟩

/-! ### What a result tells -/

section Results

variable {result : Except ArithmeticFault Decimal}

theorem rounds_of_ok (rounding : Rounding mode x place result) {r : Decimal} (done : result = .ok r) :
    mode.Rounds place x r.toRat := by
  cases rounding with
  | @taken n takes => exact ⟨n, takes, toRat_checked done⟩
  | refused unnecessary inexact => cases done

theorem checked_ne_roundingNecessary (unscaled scale : ℤ) : checked unscaled scale ≠ .error .roundingNecessary := by
  rw [checked]
  split <;> simp

theorem refused_iff (rounding : Rounding mode x place result) :
    result = .error .roundingNecessary ↔ mode = .unnecessary ∧ ¬ HasPlaces place x := by
  rw [hasPlaces_iff]
  cases rounding with
  | @taken n takes =>
    constructor
    · intro refused
      exact absurd refused (checked_ne_roundingNecessary n place)
    · rintro ⟨rfl, inexact⟩
      exact absurd ⟨n, takes⟩ inexact
  | refused unnecessary inexact =>
    have no : ¬ ∃ n : ℤ, x * 10 ^ place = n := fun ⟨n, same⟩ => inexact n same
    exact ⟨fun _ => ⟨unnecessary, no⟩, fun _ => rfl⟩

theorem ok_of_place (rounding : Rounding mode x place result) (low : minScale ≤ place) (high : place ≤ maxScale)
    (goes : mode ≠ .unnecessary ∨ HasPlaces place x) : ∃ r, result = .ok r := by
  cases rounding with
  | @taken n takes =>
    have normal : (normalize n place).IsNormal := isNormal_normalize low high
    exact ⟨normalize n place, if_pos ⟨normal.minScale_le, normal.le_maxScale⟩⟩
  | refused unnecessary inexact =>
    rcases goes with other | has
    · exact absurd unnecessary other
    · obtain ⟨n, same⟩ := hasPlaces_iff.mp has
      exact absurd same (inexact n)

theorem ok_of_scaleOf (rounding : Rounding mode x place result) (goes : mode ≠ .unnecessary ∨ HasPlaces place x) :
    ∃ y, mode.Rounds place x y ∧
      ∀ scale, ScaleOf y scale → minScale ≤ scale → scale ≤ maxScale → ∃ r, result = .ok r := by
  cases rounding with
  | @taken n takes =>
    refine ⟨n * 10 ^ (-place), ⟨n, takes, rfl⟩, ?_⟩
    intro scale stripped low high
    exact checked_of_scaleOf stripped low high
  | refused unnecessary inexact =>
    rcases goes with other | has
    · exact absurd unnecessary other
    · obtain ⟨n, same⟩ := hasPlaces_iff.mp has
      exact absurd same (inexact n)

end Results

/-! ### Significant digits -/

theorem lastPlace_of_cut {negative lost : Bool} {y : ℚ} {m : ℤ} (cut : CutsTo negative y m lost) (nonzero : m ≠ 0)
    (scale : ℤ) (digits : ℕ) : lastPlace digits (y * 10 ^ (-scale)) = scale + digits - digitCount m := by
  obtain ⟨least, most⟩ := cut.bounds
  have unit := ten_zpow_pos (-scale)
  have size : |y * 10 ^ (-scale)| = |y| * 10 ^ (-scale) := by rw [abs_mul, abs_of_pos unit]
  have own : (10 : ℚ) ^ (digitCount m - scale - 1 : ℤ) ≤ |(⟨m, scale⟩ : Decimal).toRat| :=
    @le_abs_toRat ⟨m, scale⟩ nonzero
  have low : 10 ^ (digitCount m - scale - 1 : ℤ) ≤ |y * 10 ^ (-scale)| :=
    calc
      (10 : ℚ) ^ (digitCount m - scale - 1 : ℤ) ≤ m.natAbs * 10 ^ (-scale) := own.trans_eq (abs_toRat _)
      _ ≤ |y * 10 ^ (-scale)| := by
        rw [size]
        exact mul_le_mul_of_nonneg_right least unit.le
  have high : |y * 10 ^ (-scale)| < 10 ^ (digitCount m - scale - 1 + 1 : ℤ) := by
    have bound : (m.natAbs + 1 : ℚ) ≤ 10 ^ digitCount m := by
      rw [← cast_tenPow]
      exact_mod_cast lt_tenPow_digitCount m
    have exponent : (digitCount m - scale - 1 + 1 : ℤ) = digitCount m + -scale := by omega
    rw [size, exponent, zpow_add₀ (by norm_num), zpow_natCast]
    exact mul_lt_mul_of_pos_right (most.trans_le bound) unit
  rw [lastPlace, log_eq low high]
  omega

theorem rounding_longer {y : ℚ} {unscaled : ℤ} {sticky : Bool} (cut : CutsTo (unscaled < 0) y unscaled sticky)
    (nonzero : unscaled ≠ 0) (scale : ℤ) {math : MathSettings} (positive : 0 < math.precision)
    (longer : math.precision < digitCount unscaled) :
    Rounding math.rounding (y * 10 ^ (-scale)) (lastPlace math.precision (y * 10 ^ (-scale)))
      (roundSignificant unscaled scale sticky math) := by
  have place : lastPlace math.precision (y * 10 ^ (-scale)) = scale - (digitCount unscaled - math.precision : ℕ) := by
    rw [lastPlace_of_cut cut nonzero]
    omega
  rw [roundSignificant, if_neg (by omega), place]
  exact rounding_roundDropping cut scale _ (fun _ => by omega) math.rounding

theorem rounding_self {d : Decimal} (normal : d.IsNormal) (fits : d.scale ≤ place) :
    Rounding mode d.toRat place (.ok d) := by
  obtain ⟨zeros, rfl⟩ := Int.le.dest fits
  rw [← checked_padded normal zeros]
  refine .taken ?_
  have whole : d.toRat * 10 ^ (d.scale + zeros) = (d.unscaled * tenPow zeros : ℤ) := by
    rw [← scaled_eq d fits, add_sub_cancel_left, Int.toNat_natCast]
  rw [whole]
  exact mode.takes_self _

theorem rounding_round {d : Decimal} (normal : d.IsNormal) {math : MathSettings} (positive : 0 < math.precision) :
    Rounding math.rounding d.toRat (lastPlace math.precision d.toRat) (d.round math) := by
  by_cases longer : math.precision < digitCount d.unscaled
  · have nonzero : d.unscaled ≠ 0 := by
      intro zero
      have single : digitCount 0 = 1 := rfl
      rw [zero] at longer
      omega
    exact rounding_longer (cutsTo_self d.unscaled) nonzero d.scale positive longer
  · rw [round, roundSignificant, if_pos (by right; exact ⟨by omega, rfl⟩), checked_self normal]
    refine rounding_self normal ?_
    by_cases zero : d.unscaled = 0
    · rw [normal.scale_of_zero zero, toRat_eq, zero, Int.cast_zero, zero_mul, lastPlace_zero]
      omega
    · rw [toRat_eq, lastPlace_of_cut (cutsTo_self d.unscaled) zero]
      omega

theorem rounding_roundToScale {d : Decimal} (normal : d.IsNormal) (places : ℤ) (mode : RoundingMode) :
    Rounding mode d.toRat (max minScale (min places maxScale)) (d.roundToScale places mode) := by
  rw [roundToScale]
  generalize max minScale (min places maxScale) = place
  split
  · rename_i fits
    exact rounding_self normal fits
  · have dropped := rounding_roundDropping (cutsTo_self d.unscaled) d.scale (d.scale - place).toNat nofun mode
    have same : d.scale - (d.scale - place).toNat = place := by omega
    rw [same] at dropped
    exact dropped

/-- Rounding to significant digits and rounding to places yield what the mode says of the number itself, if they
yield anything. They find a rounding necessary exactly if the mode allows none and the number needs one. Every other
number is rounded: to digits it comes out if its scale, without trailing zeros, is in range, and to places, which are
cut to that range, it always does. -/
theorem rounds_correctly {d : Decimal} (normal : d.IsNormal) (mode : RoundingMode) :
    (∀ digits, 0 < digits → let place := lastPlace digits d.toRat
      (∀ r, d.round ⟨digits, mode⟩ = .ok r → mode.Rounds place d.toRat r.toRat) ∧
      (d.round ⟨digits, mode⟩ = .error .roundingNecessary ↔
        mode = .unnecessary ∧ ¬ HasDigits digits d.toRat) ∧
      (mode ≠ .unnecessary ∨ HasDigits digits d.toRat → ∃ x, mode.Rounds place d.toRat x ∧
        ∀ scale, ScaleOf x scale → minScale ≤ scale → scale ≤ maxScale →
          ∃ r, d.round ⟨digits, mode⟩ = .ok r)) ∧
    ∀ places, let place := max minScale (min places maxScale)
      (∀ r, d.roundToScale places mode = .ok r → mode.Rounds place d.toRat r.toRat) ∧
      (d.roundToScale places mode = .error .roundingNecessary ↔
        mode = .unnecessary ∧ ¬ HasPlaces place d.toRat) ∧
      (mode ≠ .unnecessary ∨ HasPlaces place d.toRat → ∃ r, d.roundToScale places mode = .ok r) := by
  constructor
  · intro digits positive place
    have rounding : Rounding mode d.toRat place (d.round ⟨digits, mode⟩) :=
      @rounding_round d normal ⟨digits, mode⟩ positive
    rw [hasDigits_iff]
    refine ⟨?_, refused_iff rounding, ok_of_scaleOf rounding⟩
    intro r done
    exact rounds_of_ok rounding done
  · intro places place
    have rounding : Rounding mode d.toRat place (d.roundToScale places mode) := rounding_roundToScale normal places mode
    have low : minScale ≤ place := le_max_left _ _
    have high : place ≤ maxScale := max_le (by decide) (min_le_right _ _)
    refine ⟨?_, refused_iff rounding, ok_of_place rounding low high⟩
    intro r done
    exact rounds_of_ok rounding done

/-- A tie below zero that carries over all digits, and a unit far above the number. -/
theorem rounds_correctly_carry :
    let d : Decimal := ⟨-9995, 3⟩
    d.IsNormal ∧ d.round ⟨3, .halfEven⟩ = .ok ⟨-1, -1⟩ ∧
      RoundingMode.halfEven.Rounds (lastPlace 3 d.toRat) d.toRat (-10) ∧
      d.roundToScale (-3) .floor = .ok ⟨-1, -3⟩ ∧ RoundingMode.floor.Rounds (-3) d.toRat (-1000) := by
  intro d
  have normal : d.IsNormal := ⟨by decide, by decide, by decide, by decide⟩
  have ten : d.round ⟨3, .halfEven⟩ = .ok ⟨-1, -1⟩ := by decide +kernel
  have thousand : d.roundToScale (-3) .floor = .ok ⟨-1, -3⟩ := by decide +kernel
  have digits := ((rounds_correctly normal .halfEven).1 3 (by decide)).1 _ ten
  have places := ((rounds_correctly normal .floor).2 (-3)).1 _ thousand
  have value : (⟨-1, -1⟩ : Decimal).toRat = -10 := by norm_num [toRat]
  have value' : (⟨-1, -3⟩ : Decimal).toRat = -1000 := by norm_num [toRat]
  have cut : max minScale (min (-3) maxScale) = -3 := by decide
  rw [value] at digits
  rw [value', cut] at places
  exact ⟨normal, ten, digits, thousand, places⟩

end Decimal

end TemplateExpr
