import TemplateExpr.Proofs.Decimal.Division
import TemplateExpr.Proofs.Decimal.ScaleRange
import Mathlib.Data.Nat.Prime.Basic
/-!
Division without a limit on digits. In lowest terms the denominator loses its factors 2 and then its factors 5. The
quotient has a finite decimal expansion exactly if nothing but 1 is left, and then the larger of the two counts is the
number of zeros that the numerator needs; so what comes out is the quotient itself.
-/
namespace TemplateExpr

/-- So many digits behind the point are enough to write the number. -/
def FiniteExpansion (x : ℚ) : Prop := ∃ place, HasPlaces place x

namespace Decimal

/-! ### Counting factors -/

/-- Dividing by `p` as long as `p` divides comes to an end: after so many rounds this is left. -/
inductive Removes (p : ℕ) : ℕ → ℕ → ℕ → Prop where
  | last {n : ℕ} (indivisible : ¬ p ∣ n) : Removes p n 0 n
  | round {n count rest : ℕ} (later : Removes p n count rest) : Removes p (p * n) (count + 1) rest

variable {p n count rest : ℕ}

theorem Removes.eq (removes : Removes p n count rest) : n = p ^ count * rest := by
  induction removes with
  | last => rw [pow_zero, one_mul]
  | round later ih => rw [ih, pow_succ', mul_assoc]

theorem Removes.not_dvd (removes : Removes p n count rest) : ¬ p ∣ rest := by
  induction removes with
  | last indivisible => exact indivisible
  | round later ih => exact ih

theorem removes_removeFactor (several : 1 < p) (nonzero : n ≠ 0) :
    Removes p n (removeFactor p n).1 (removeFactor p n).2 := by
  fun_induction removeFactor p n with
  | case1 n divides count rest eq ih =>
    obtain ⟨m, rfl⟩ := Nat.dvd_of_mod_eq_zero divides.2.2
    rw [Nat.mul_div_cancel_left m (by omega)] at eq ih
    have later := ih (Nat.ne_zero_of_mul_ne_zero_right nonzero)
    rw [eq] at later
    exact .round later
  | case2 n stays =>
    apply Removes.last
    intro divides
    exact stays ⟨several, nonzero, Nat.mod_eq_zero_of_dvd divides⟩

theorem tenPow_eq (k : ℕ) : tenPow k = 2 ^ k * 5 ^ k := Nat.mul_pow 2 5 k

theorem dvd_tenPow_iff {twos odd fives k : ℕ} (halved : Removes 2 n twos odd) (fifthed : Removes 5 odd fives rest) :
    n ∣ tenPow k ↔ rest = 1 ∧ max twos fives ≤ k := by
  have even : ¬ 2 ∣ rest := by
    intro divides
    apply halved.not_dvd
    rw [fifthed.eq]
    exact divides.mul_left _
  have two : Nat.Coprime 2 rest := Nat.prime_two.coprime_iff_not_dvd.mpr even
  have five : Nat.Coprime 5 rest := Nat.prime_five.coprime_iff_not_dvd.mpr fifthed.not_dvd
  rw [halved.eq, fifthed.eq, tenPow_eq]
  constructor
  · intro divides
    have power : rest ∣ 2 ^ k * 5 ^ k := ((Dvd.intro_left _ rfl).trans (Dvd.intro_left _ rfl)).trans divides
    have prime : Nat.Coprime rest (2 ^ k * 5 ^ k) := (two.symm.pow_right k).mul_right (five.symm.pow_right k)
    have pureTwos : 2 ^ twos ∣ 2 ^ k := by
      apply Nat.Coprime.dvd_of_dvd_mul_right (k := 2 ^ twos) (n := 5 ^ k) (Nat.Coprime.pow _ _ (by decide))
      exact (Dvd.intro _ rfl).trans divides
    have pureFives : 5 ^ fives ∣ 5 ^ k := by
      apply Nat.Coprime.dvd_of_dvd_mul_left (Nat.Coprime.pow fives k (by decide : Nat.Coprime 5 2))
      exact ((Dvd.intro _ rfl).trans (Dvd.intro_left _ rfl)).trans divides
    exact ⟨prime.eq_one_of_dvd power,
      max_le ((Nat.pow_dvd_pow_iff_le_right (by decide)).mp pureTwos)
        ((Nat.pow_dvd_pow_iff_le_right (by decide)).mp pureFives)⟩
  · rintro ⟨rfl, enough⟩
    rw [mul_one]
    exact Nat.mul_dvd_mul (pow_dvd_pow 2 ((le_max_left _ _).trans enough))
      (pow_dvd_pow 5 ((le_max_right _ _).trans enough))

/-! ### Lowest terms -/

section Reduced

variable {a b : Decimal}

def numerator (a b : Decimal) : ℤ := a.unscaled.tdiv (Int.gcd a.unscaled b.unscaled) * b.unscaled.sign

def denominator (a b : Decimal) : ℕ := b.unscaled.natAbs / Int.gcd a.unscaled b.unscaled

theorem gcd_pos (nonzero : b.unscaled ≠ 0) : 0 < Int.gcd a.unscaled b.unscaled :=
  Nat.gcd_pos_of_pos_right _ (Int.natAbs_pos.mpr nonzero)

theorem gcd_mul_denominator (a b : Decimal) : Int.gcd a.unscaled b.unscaled * denominator a b = b.unscaled.natAbs :=
  Nat.mul_div_cancel' (Nat.gcd_dvd_right _ _)

theorem denominator_ne_zero (nonzero : b.unscaled ≠ 0) : denominator a b ≠ 0 := by
  intro zero
  have parts := gcd_mul_denominator a b
  rw [zero, mul_zero] at parts
  exact nonzero (Int.natAbs_eq_zero.mp parts.symm)

theorem coprime_reduced (nonzero : b.unscaled ≠ 0) : (numerator a b).natAbs.Coprime (denominator a b) := by
  rw [numerator, Int.natAbs_mul, Int.natAbs_tdiv, Int.natAbs_natCast, Int.natAbs_sign_of_ne_zero nonzero, mul_one]
  exact Nat.coprime_div_gcd_div_gcd (gcd_pos nonzero)

theorem numerator_mul (a b : Decimal) : numerator a b * b.unscaled = a.unscaled * denominator a b := by
  have whole : (Int.gcd a.unscaled b.unscaled : ℤ) * a.unscaled.tdiv (Int.gcd a.unscaled b.unscaled) = a.unscaled :=
    Int.mul_tdiv_cancel' (Int.gcd_dvd_left _ _)
  calc
    numerator a b * b.unscaled = a.unscaled.tdiv (Int.gcd a.unscaled b.unscaled) * b.unscaled.natAbs := by
      rw [numerator, mul_assoc, mul_comm b.unscaled.sign, Int.mul_sign_self]
    _ = Int.gcd a.unscaled b.unscaled * a.unscaled.tdiv (Int.gcd a.unscaled b.unscaled) * denominator a b := by
      rw [← gcd_mul_denominator a b, Nat.cast_mul]
      ring
    _ = a.unscaled * denominator a b := by rw [whole]

theorem quotient_reduced (nonzero : b.unscaled ≠ 0) (places : ℕ) :
    a.toRat / b.toRat =
      ((numerator a b * tenPow places : ℤ) : ℚ) / denominator a b * 10 ^ (-(a.scale - b.scale + places)) := by
  have divisor : (b.unscaled : ℚ) ≠ 0 := by exact_mod_cast nonzero
  have lowest : (denominator a b : ℚ) ≠ 0 := by exact_mod_cast denominator_ne_zero nonzero
  have parts : (numerator a b * b.unscaled : ℚ) = a.unscaled * denominator a b := by exact_mod_cast numerator_mul a b
  rw [quotient_eq a b places]
  congr 1
  rw [div_eq_div_iff divisor lowest]
  push_cast
  rw [mul_right_comm, ← parts, mul_right_comm]

theorem quotient_whole (nonzero : b.unscaled ≠ 0) {places : ℕ} (enough : denominator a b ∣ tenPow places) :
    a.toRat / b.toRat =
      ((numerator a b * tenPow places).tdiv (denominator a b) : ℤ) * 10 ^ (-(a.scale - b.scale + places)) := by
  have lowest : (denominator a b : ℚ) ≠ 0 := by exact_mod_cast denominator_ne_zero nonzero
  have divides : (denominator a b : ℤ) ∣ numerator a b * tenPow places :=
    (Int.natCast_dvd_natCast.mpr enough).mul_left _
  rw [quotient_reduced nonzero places]
  congr 1
  rw [div_eq_iff lowest]
  exact_mod_cast (Int.tdiv_mul_cancel divides).symm

theorem enough_of_whole (nonzero : b.unscaled ≠ 0) {places : ℕ} {m : ℤ}
    (value : a.toRat / b.toRat = m * 10 ^ (-(a.scale - b.scale + places))) : denominator a b ∣ tenPow places := by
  have lowest : (denominator a b : ℚ) ≠ 0 := by exact_mod_cast denominator_ne_zero nonzero
  rw [quotient_reduced nonzero places, mul_left_inj' (ten_zpow_pos _).ne', div_eq_iff lowest] at value
  have whole : numerator a b * tenPow places = m * denominator a b := by exact_mod_cast value
  apply (coprime_reduced nonzero).symm.dvd_of_dvd_mul_left
  rw [← Int.natAbs_natCast (tenPow places), ← Int.natAbs_mul, whole, Int.natAbs_mul, Int.natAbs_natCast]
  exact Nat.dvd_mul_left _ _

theorem finiteExpansion_iff (nonzero : b.unscaled ≠ 0) :
    FiniteExpansion (a.toRat / b.toRat) ↔ ∃ places, denominator a b ∣ tenPow places := by
  constructor
  · rintro ⟨place, decimal⟩
    have more : place ≤ a.scale - b.scale + (place - (a.scale - b.scale)).toNat := by omega
    obtain ⟨m, value⟩ := hasPlaces_mono more decimal
    exact ⟨_, enough_of_whole nonzero value⟩
  · rintro ⟨places, enough⟩
    exact ⟨_, _, quotient_whole nonzero enough⟩

/-! ### What is to come of a division -/

/-- The fewest zeros with which the fraction is an integer. -/
def Needs (a b : Decimal) (places : ℕ) : Prop := IsLeast {k | denominator a b ∣ tenPow k} places

theorem factors_counted (nonzero : b.unscaled ≠ 0) :
    ∃ twos odd fives rest, removeFactor 2 (denominator a b) = (twos, odd) ∧ removeFactor 5 odd = (fives, rest) ∧
      Removes 2 (denominator a b) twos odd ∧ Removes 5 odd fives rest := by
  have halved := removes_removeFactor (p := 2) (by decide) (denominator_ne_zero (a := a) nonzero)
  have some : (removeFactor 2 (denominator a b)).2 ≠ 0 := by
    intro zero
    exact halved.not_dvd (zero ▸ dvd_zero 2)
  exact ⟨_, _, _, _, rfl, rfl, halved, removes_removeFactor (by decide) some⟩

theorem needs_of_removes {twos odd fives : ℕ} (halved : Removes 2 (denominator a b) twos odd)
    (fifthed : Removes 5 odd fives 1) : Needs a b (max twos fives) :=
  ⟨(dvd_tenPow_iff halved fifthed).mpr ⟨rfl, le_rfl⟩, fun _ enough => ((dvd_tenPow_iff halved fifthed).mp enough).2⟩

theorem counts_le_log2 (nonzero : b.unscaled ≠ 0) {twos odd fives : ℕ}
    (halved : Removes 2 (denominator a b) twos odd) (fifthed : Removes 5 odd fives rest) :
    max twos fives ≤ b.unscaled.natAbs.log2 := by
  have divisor : 0 < b.unscaled.natAbs := Int.natAbs_pos.mpr nonzero
  have twice : 2 ^ twos ∣ b.unscaled.natAbs := by
    rw [← gcd_mul_denominator a b, halved.eq]
    exact (Dvd.intro _ rfl).mul_left _
  have fifths : 5 ^ fives ∣ b.unscaled.natAbs := by
    rw [← gcd_mul_denominator a b, halved.eq, fifthed.eq]
    exact ((Dvd.intro _ rfl).mul_left _).mul_left _
  apply max_le <;> rw [Nat.le_log2 divisor.ne']
  · exact Nat.le_of_dvd divisor twice
  · exact (Nat.pow_le_pow_left (by decide) fives).trans (Nat.le_of_dvd divisor fifths)

/-- What is to come of dividing without a limit on digits. -/
inductive Dividing (a b : Decimal) : Except ArithmeticFault Decimal → Prop where
  | endless (never : ∀ k, ¬ denominator a b ∣ tenPow k) : Dividing a b (.error .nonTerminating)
  | long {places : ℕ} (needs : Needs a b places) (beyond : maxShift < places)
      (within : places ≤ b.unscaled.natAbs.log2) : Dividing a b (.error .scaleOutOfRange)
  | whole {places : ℕ} (needs : Needs a b places) {q : ℤ}
      (value : a.toRat / b.toRat = q * 10 ^ (-(a.scale - b.scale + places))) :
      Dividing a b (checked q (a.scale - b.scale + places))

theorem dividing_divExact (nonzero : b.unscaled ≠ 0) : Dividing a b (divExact a b) := by
  obtain ⟨twos, odd, fives, rest, evens, odds, halved, fifthed⟩ := factors_counted (a := a) nonzero
  rw [denominator] at evens
  rw [divExact]
  dsimp only
  rw [evens]
  dsimp only
  rw [odds]
  split
  · rename_i other
    refine .endless fun k enough => other ?_
    exact ((dvd_tenPow_iff halved fifthed).mp enough).1
  · rename_i pure
    obtain rfl : rest = 1 := not_not.mp pure
    have needs := needs_of_removes halved fifthed
    split
    · rename_i beyond
      exact .long needs beyond (counts_le_log2 nonzero halved fifthed)
    · exact .whole needs (quotient_whole nonzero needs.1)

theorem dividing_div {math : MathSettings} (nonzero : ¬ b.IsZero) (unlimited : math.precision = 0) :
    Dividing a b (div a b math) := by
  rw [div, if_neg nonzero, if_pos unlimited]
  split
  · rename_i none
    have zero : a.unscaled = 0 := none
    have single : denominator a b = 1 := by
      rw [denominator, zero, Int.gcd_zero_left, Nat.div_self (Int.natAbs_pos.mpr nonzero)]
    have needs : Needs a b 0 := ⟨single ▸ one_dvd (tenPow 0), fun _ _ => Nat.zero_le _⟩
    rw [← checked_zero (a.scale - b.scale + (0 : ℕ))]
    refine .whole needs ?_
    rw [toRat_eq a, zero, Int.cast_zero, zero_mul, zero_mul, zero_div]
  · exact dividing_divExact nonzero

theorem scaleOf_quotient (nonzero : b.unscaled ≠ 0) {places : ℕ} (needs : Needs a b places) (some : 0 < places) :
    ScaleOf (a.toRat / b.toRat) (a.scale - b.scale + places) := by
  have value := quotient_whole nonzero needs.1
  have last : (numerator a b * tenPow places).tdiv (denominator a b) % 10 ≠ 0 := by
    intro divides
    obtain ⟨q, ten⟩ := Int.dvd_of_emod_eq_zero divides
    obtain ⟨fewer, rfl⟩ : ∃ fewer, places = fewer + 1 := ⟨places - 1, by omega⟩
    have enough : denominator a b ∣ tenPow fewer := by
      apply enough_of_whole nonzero (m := q)
      rw [value, ten, Nat.cast_succ, ← add_assoc, neg_add _ (1 : ℤ), zpow_add₀ (by norm_num)]
      push_cast
      ring
    have := needs.2 enough
    omega
  refine ⟨_, value, ?_, fun _ => last⟩
  intro zero
  rw [zero] at last
  exact absurd rfl last

end Reduced

/-! ### Results -/

/-- Without its trailing zeros, the number has a scale out of range. -/
def LeavesRange (x : ℚ) : Prop := ∃ scale, ScaleOf x scale ∧ (scale < minScale ∨ maxScale < scale)

variable {a b : Decimal} {result : Except ArithmeticFault Decimal} {fault : ArithmeticFault}

theorem finiteExpansion_zero : FiniteExpansion 0 := ⟨0, 0, by simp⟩

theorem finiteExpansion_of_leavesRange {x : ℚ} (leaves : LeavesRange x) : FiniteExpansion x := by
  obtain ⟨scale, ⟨n, value, _⟩, _⟩ := leaves
  exact ⟨scale, n, value⟩

theorem leavesRange_of_refused {unscaled scale : ℤ} (refused : checked unscaled scale = .error fault) :
    fault = .scaleOutOfRange ∧ LeavesRange (unscaled * 10 ^ (-scale)) := by
  constructor
  · rcases checked_ok_or_error unscaled scale with ⟨d, done⟩ | range
    · rw [refused] at done
      cases done
    · rw [refused] at range
      exact Except.error.inj range
  · obtain ⟨least, stripped⟩ := exists_scaleOf ⟨unscaled, rfl⟩
    refine ⟨least, stripped, ?_⟩
    by_contra within
    obtain ⟨d, done⟩ := checked_of_scaleOf stripped (by omega) (by omega)
    rw [refused] at done
    cases done

theorem Dividing.exact (dividing : Dividing a b result) {q : Decimal} (done : result = .ok q) :
    q.toRat = a.toRat / b.toRat := by
  cases dividing with
  | endless | long => cases done
  | whole _ value => rw [value, toRat_checked done]

theorem Dividing.endless_iff (dividing : Dividing a b result) (nonzero : b.unscaled ≠ 0) :
    result = .error .nonTerminating ↔ ¬ FiniteExpansion (a.toRat / b.toRat) := by
  rw [finiteExpansion_iff nonzero]
  cases dividing with
  | endless never => exact iff_of_true rfl (not_exists.mpr never)
  | long needs => exact iff_of_false nofun (not_not.mpr ⟨_, needs.1⟩)
  | whole needs =>
    refine iff_of_false (fun refused => ?_) (not_not.mpr ⟨_, needs.1⟩)
    cases (leavesRange_of_refused refused).1

theorem Dividing.fails (dividing : Dividing a b result) (nonzero : b.unscaled ≠ 0) (failed : result = .error fault)
    (finite : fault ≠ .nonTerminating) :
    fault = .scaleOutOfRange ∧ (LeavesRange (a.toRat / b.toRat) ∨
      ∃ places : ℕ, maxShift < places ∧ places ≤ b.unscaled.natAbs.log2 ∧
        ScaleOf (a.toRat / b.toRat) (a.scale - b.scale + places)) := by
  cases dividing with
  | endless =>
    cases failed
    exact absurd rfl finite
  | long needs beyond within =>
    cases failed
    exact ⟨rfl, .inr ⟨_, beyond, within, scaleOf_quotient nonzero needs (Nat.zero_lt_of_lt beyond)⟩⟩
  | whole _ value =>
    obtain ⟨range, leaves⟩ := leavesRange_of_refused failed
    rw [value]
    exact ⟨range, .inl leaves⟩

end Decimal

end TemplateExpr
