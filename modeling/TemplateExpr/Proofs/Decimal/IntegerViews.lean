import TemplateExpr.Proofs.Decimal.IntegerDivision
/-!
The integer views of a normal decimal are those of the number denoted: its integer part, its floor, whether it is an
integer, and the integers of 64 and of 32 bits. The digits before the point, which settle the extreme cases before any
power of ten is formed, say exactly which powers of ten the number reaches. So nothing is lost where they alone decide.
-/
namespace TemplateExpr.Decimal

section Length

theorem abs_towardsZero (x : ℚ) : |towardsZero x| = ⌊|x|⌋ := by
  unfold towardsZero
  split
  · rename_i nonneg
    rw [abs_of_nonneg nonneg, abs_of_nonneg (Int.floor_nonneg.mpr nonneg)]
  · rename_i negative
    have below := (not_le.mp negative).le
    rw [abs_of_nonpos below, Int.floor_neg, abs_of_nonpos (Int.ceil_nonpos.mpr below)]

variable {d : Decimal}

theorem lt_integerDigits_iff_trunc (nonzero : ¬ d.IsZero) (k : ℕ) :
    k < d.integerDigits ↔ (10 : ℤ) ^ k ≤ |towardsZero d.toRat| := by
  rw [lt_integerDigits_iff nonzero, abs_towardsZero, Int.le_floor, zpow_natCast, Int.cast_pow, Int.cast_ofNat]

theorem not_fits_of_long (normal : d.IsNormal) (long : 19 < d.integerDigits) :
    ¬ FitsSigned 64 (towardsZero d.toRat) := by
  -- a zero with a negative scale would be as long, but it is not normal
  have nonzero : ¬ d.IsZero := by
    intro zero
    rw [integerDigits_of_zero normal.scale_of_zero zero] at long
    omega
  have large := (lt_integerDigits_iff_trunc nonzero 19).mp long
  rw [fitsSigned_64_iff]
  rcases le_abs.mp large with above | below <;> omega

end Length

/-! ### Conversions to signed integers -/

/-- A conversion to integers of so many bits answers with the number itself, and with nothing for any number that is
no such integer. -/
def Converts (bits : ℕ) (x : ℚ) (answer : Option ℤ) : Prop :=
  ∀ n : ℤ, answer = some n ↔ x = n ∧ -2 ^ (bits - 1) ≤ n ∧ n < 2 ^ (bits - 1)

theorem fitsSigned_iff (bits : ℕ) (n : ℤ) : FitsSigned bits n ↔ -2 ^ (bits - 1) ≤ n ∧ n < 2 ^ (bits - 1) := by
  have power : (twoPow (bits - 1) : ℤ) = 2 ^ (bits - 1) := Nat.cast_pow 2 (bits - 1)
  rw [FitsSigned, power]
  omega

namespace Converts

variable {bits : ℕ} {x : ℚ} {answer : Option ℤ}

theorem of_integer (bits : ℕ) (n : ℤ) : Converts bits n (if FitsSigned bits n then some n else none) := by
  intro m
  rw [Option.ite_none_right_eq_some, fitsSigned_iff, Option.some.injEq, Int.cast_inj]
  constructor
  · rintro ⟨fits, rfl⟩
    exact ⟨rfl, fits⟩
  · rintro ⟨rfl, fits⟩
    exact ⟨fits, rfl⟩

theorem of_fraction (bits : ℕ) (fraction : ¬ ∃ n : ℤ, x = n) : Converts bits x none := by
  intro n
  constructor
  · intro impossible
    cases impossible
  · rintro ⟨whole, _⟩
    exact absurd ⟨n, whole⟩ fraction

theorem filter {narrow wide : ℕ} (converts : Converts wide x answer) (narrower : narrow ≤ wide) :
    Converts narrow x (answer.filter fun n => FitsSigned narrow n) := by
  intro n
  have wider : (2 : ℤ) ^ (narrow - 1) ≤ 2 ^ (wide - 1) := pow_le_pow_right₀ (by norm_num) (by omega)
  rw [Option.filter_eq_some_iff, converts n, decide_eq_true_iff, fitsSigned_iff]
  constructor
  · rintro ⟨⟨whole, _⟩, fits⟩
    exact ⟨whole, fits⟩
  · rintro ⟨whole, fits⟩
    exact ⟨⟨whole, by omega⟩, fits⟩

theorem unique {other : Option ℤ} (converts : Converts bits x answer) (others : Converts bits x other) :
    answer = other :=
  Option.ext fun n => (converts n).trans (others n).symm

end Converts

section Normal

variable {d : Decimal} (normal : d.IsNormal)
include normal

theorem truncInt64?_eq :
    d.truncInt64? = if FitsSigned 64 (towardsZero d.toRat) then some (towardsZero d.toRat) else none := by
  rw [truncInt64?, trunc_eq_towardsZero]
  split
  · rename_i long
    rw [if_neg (not_fits_of_long normal long)]
  · rfl

theorem converts_toInt64? : Converts 64 d.toRat d.toInt64? := by
  rw [toInt64?]
  split
  · rename_i whole
    -- an integer is its own integer part
    obtain ⟨n, value⟩ := (isInteger_iff normal).mp whole
    rw [truncInt64?_eq normal, value, towardsZero_intCast]
    exact .of_integer 64 n
  · rename_i fraction
    exact .of_fraction 64 (mt (isInteger_iff normal).mpr fraction)

theorem converts_toInt32? : Converts 32 d.toRat d.toInt32? := (converts_toInt64? normal).filter (by decide)

end Normal

theorem toInt64?_ofInt {n : ℤ} (fits : FitsSigned 64 n) : (ofInt n).toInt64? = some n :=
  (converts_toInt64? (isNormal_ofInt n) n).mpr ⟨toRat_ofInt n, (fitsSigned_iff 64 n).mp fits⟩

/-- The integer views of a normal decimal are those of its number, for every sign, length and scale. The count of digits
before the point tells which powers of ten the number reaches. -/
theorem integer_views_exact {d : Decimal} (normal : d.IsNormal) :
    d.trunc = towardsZero d.toRat ∧ d.floor = ⌊d.toRat⌋ ∧ (d.IsInteger ↔ ∃ n : ℤ, d.toRat = n) ∧
    d.truncInt64? = (if -2 ^ 63 ≤ towardsZero d.toRat ∧ towardsZero d.toRat < 2 ^ 63
      then some (towardsZero d.toRat) else none) ∧
    (∀ n : ℤ, d.toInt64? = some n ↔ d.toRat = n ∧ -2 ^ 63 ≤ n ∧ n < 2 ^ 63) ∧
    (∀ n : ℤ, d.toInt32? = some n ↔ d.toRat = n ∧ -2 ^ 31 ≤ n ∧ n < 2 ^ 31) ∧
    (¬ d.IsZero → ∀ k : ℤ, k < d.integerDigits ↔ (10 : ℚ) ^ k ≤ |d.toRat|) := by
  refine ⟨trunc_eq_towardsZero d, floor_eq d, isInteger_iff normal, ?_, converts_toInt64? normal,
    converts_toInt32? normal, lt_integerDigits_iff⟩
  rw [truncInt64?_eq normal]
  simp only [fitsSigned_iff]

/-- The least integer of 64 bits, and a power of ten that its digits alone put above all of them. -/
theorem integer_views_exact_limits :
    let least : Decimal := ⟨-9223372036854775808, 0⟩
    let huge : Decimal := ⟨1, -2147483647⟩
    least.IsNormal ∧ least.toInt64? = some (-2 ^ 63) ∧ least.toInt32? = none ∧
    huge.IsNormal ∧ huge.truncInt64? = none ∧
      ¬ (-2 ^ 63 ≤ towardsZero huge.toRat ∧ towardsZero huge.toRat < 2 ^ 63) := by
  intro least huge
  have normal : least.IsNormal := ⟨by decide, by decide, by decide, by decide⟩
  have value : least.toRat = ((-2 ^ 63 : ℤ) : ℚ) := by norm_num [least, toRat]
  obtain ⟨_, _, _, _, wide, narrow, _⟩ := integer_views_exact normal
  have outside : least.toInt32? = none := by
    rw [Option.eq_none_iff_forall_ne_some]
    intro n answer
    obtain ⟨same, low, _⟩ := (narrow n).mp answer
    have equal : -2 ^ 63 = n := Int.cast_injective (value.symm.trans same)
    omega
  have normal' : huge.IsNormal := ⟨by decide, by decide, by decide, by decide⟩
  have long : huge.truncInt64? = none := by decide
  -- the power is never formed: that it does not fit follows from the answer
  obtain ⟨_, _, _, cut, _⟩ := integer_views_exact normal'
  rw [long] at cut
  refine ⟨normal, (wide _).mpr ⟨value, by decide, by decide⟩, outside, normal', long, fun fits => ?_⟩
  rw [if_pos fits] at cut
  cases cut

/-- Below zero the floor lies beyond the integer part, and a number between two integers is none. -/
example : trunc ⟨-127, 1⟩ = -12 ∧ floor ⟨-127, 1⟩ = -13 ∧ truncInt64? ⟨-127, 1⟩ = some (-12) ∧
    toInt64? ⟨-127, 1⟩ = none := by decide +kernel

end TemplateExpr.Decimal
