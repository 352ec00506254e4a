import TemplateExpr.Decimal.Power
import TemplateExpr.Proofs.Decimal.Division
import TemplateExpr.Proofs.Decimal.IntegerViews
import Mathlib.Algebra.Order.Ring.Pow
import Mathlib.Data.Nat.Prime.Int
/-!
Integer powers. Each product of the repeated squaring is rounded, to a few digits more than the power keeps, and the
power is rounded from what they leave. So it is not always the exact power rounded: this is the case if the power needs
no more than those digits, and any other is rounded from a number that is as near as the digits asked for.
-/
namespace TemplateExpr

/-! ### Drift -/

/-- A product of so many factors, none of them farther from one than by `part`. -/
def NearOne (part : ℚ) (count : ℕ) (t : ℚ) : Prop := (1 - part) ^ count ≤ t ∧ t ≤ (1 + part) ^ count

/-- `y` is `x` times so many factors near one. -/
def Drifts (part : ℚ) (count : ℕ) (x y : ℚ) : Prop := ∃ t, NearOne part count t ∧ y = x * t

section Drift

variable {part : ℚ} {k l n : ℕ} {x y z : ℚ}

theorem drifts_self (part x : ℚ) : Drifts part 0 x x := ⟨1, by simp [NearOne], (mul_one x).symm⟩

theorem nearOne_mul (small : part ≤ 1) {s t : ℚ} (first : NearOne part k s)
    (second : NearOne part l t) : NearOne part (k + l) (s * t) := by
  have below : 0 ≤ (1 - part) ^ k := pow_nonneg (by linarith) k
  have below' : 0 ≤ (1 - part) ^ l := pow_nonneg (by linarith) l
  rw [NearOne, pow_add, pow_add]
  constructor
  · exact mul_le_mul first.1 second.1 below' (below.trans first.1)
  · exact mul_le_mul first.2 second.2 (below'.trans second.1) ((below.trans first.1).trans first.2)

theorem drifts_of_abs_sub_le (nonneg : 0 ≤ part) (near : |y - x| ≤ |x| * part) : Drifts part 1 x y := by
  rcases eq_or_ne x 0 with rfl | nonzero
  · have zero : y = 0 := by simpa using near
    exact ⟨1, by simp [NearOne, nonneg], by rw [zero, zero_mul]⟩
  · have factor : |y / x - 1| ≤ part := by
      rw [div_sub_one nonzero, abs_div, div_le_iff₀ (abs_pos.mpr nonzero), mul_comm]
      exact near
    obtain ⟨low, high⟩ := abs_le.mp factor
    refine ⟨y / x, ?_, (mul_div_cancel₀ y nonzero).symm⟩
    rw [NearOne, pow_one, pow_one]
    constructor <;> linarith

theorem drifts_mul (small : part ≤ 1) {x' y' : ℚ} (first : Drifts part k x y)
    (second : Drifts part l x' y') (product : Drifts part 1 (y * y') z) : Drifts part (k + l + 1) (x * x') z := by
  obtain ⟨s, nearS, rfl⟩ := first
  obtain ⟨t, nearT, rfl⟩ := second
  obtain ⟨u, nearU, rfl⟩ := product
  have near := nearOne_mul small (nearOne_mul small nearS nearT) nearU
  exact ⟨s * t * u, near, by ring⟩

theorem abs_sub_le_of_drifts (nonneg : 0 ≤ part) (small : part ≤ 1) {most : ℚ} (few : n * part ≤ most)
    (least : most < 1) (drifts : Drifts part n x y) : |y - x| ≤ max |x| |y| * most := by
  obtain ⟨t, ⟨low, high⟩, rfl⟩ := drifts
  have room : 0 ≤ most := le_trans (by positivity) few
  have bernoulli : 1 - most ≤ (1 - part) ^ n := by
    have := one_add_mul_le_pow (a := -part) (by linarith) n
    rw [← sub_eq_add_neg] at this
    linarith
  rw [← mul_sub_one, abs_mul]
  rcases le_total t 1 with below | above
  · have near : |t - 1| ≤ most := by
      rw [abs_of_nonpos (by linarith)]
      linarith
    exact mul_le_mul (le_max_left _ _) near (abs_nonneg _) (le_max_of_le_left (abs_nonneg x))
  · -- the factor is as near to one as its inverse is, in units of itself
    have inverse : t * (1 - most) ≤ 1 :=
      calc
        t * (1 - most) ≤ (1 + part) ^ n * (1 - part) ^ n :=
          mul_le_mul high bernoulli (by linarith) (by positivity)
        _ = (1 - part * part) ^ n := by
          rw [← mul_pow]
          ring
        _ ≤ 1 := by
          apply pow_le_one₀
          · exact sub_nonneg.mpr (mul_le_one₀ small nonneg small)
          · exact sub_le_self 1 (mul_self_nonneg part)
    calc
      |x| * |t - 1| ≤ |x| * (t * most) := by
        rw [abs_of_nonneg (a := t - 1) (by linarith)]
        exact mul_le_mul_of_nonneg_left (by linarith) (abs_nonneg x)
      _ = |x * t| * most := by rw [abs_mul, abs_of_nonneg (a := t) (by linarith), mul_assoc]
      _ ≤ max |x| |x * t| * most := mul_le_mul_of_nonneg_right (le_max_right _ _) room

end Drift

/-! ### Digits of powers -/

section Digits

variable {digits k n : ℕ} {x : ℚ} {m scale : ℤ}

theorem hasDigits_stripped (last : m % 10 ≠ 0) : HasDigits digits (m * 10 ^ (-scale)) ↔ |m| < 10 ^ digits := by
  constructor
  · rintro ⟨n, place, few, same⟩
    obtain ⟨zeros, rfl, rfl⟩ := Decimal.eq_padded same.symm last
    refine lt_of_le_of_lt ?_ few
    rw [abs_mul, Nat.abs_cast]
    exact le_mul_of_one_le_right (abs_nonneg m) (by exact_mod_cast tenPow_pos zeros)
  · intro few
    exact ⟨m, scale, few, rfl⟩

theorem pow_emod_ten (last : m % 10 ≠ 0) (n : ℕ) : m ^ n % 10 ≠ 0 := by
  intro divides
  have two : 2 ∣ m ^ n := by omega
  have five : 5 ∣ m ^ n := by omega
  have := Int.prime_two.dvd_of_dvd_pow two
  have := (Nat.prime_iff_prime_int.mp Nat.prime_five).dvd_of_dvd_pow five
  omega

theorem hasDigits_mono {more : ℕ} (le : digits ≤ more) (few : HasDigits digits x) : HasDigits more x := by
  obtain ⟨n, place, bound, same⟩ := few
  exact ⟨n, place, bound.trans_le (pow_le_pow_right₀ (by norm_num) le), same⟩

theorem pow_scaled (m scale : ℤ) (n : ℕ) : ((m : ℚ) * 10 ^ (-scale)) ^ n = (m ^ n : ℤ) * 10 ^ (-(scale * n)) := by
  rw [mul_pow, Int.cast_pow, ← zpow_natCast (10 ^ _) n, ← zpow_mul, neg_mul]

theorem hasDigits_of_pow {place : ℤ} (decimal : HasPlaces place x) (positive : 0 < digits) (lower : k ≤ n)
    (few : HasDigits digits (x ^ n)) : HasDigits digits (x ^ k) := by
  have single : (1 : ℤ) < 10 ^ digits := one_lt_pow₀ (by norm_num) positive.ne'
  rcases eq_or_ne x 0 with rfl | nonzero
  · rcases Nat.eq_zero_or_pos k with rfl | pos
    · exact ⟨1, 0, by simpa using single, by simp⟩
    · exact ⟨0, 0, by simp, by simp [pos.ne']⟩
  · obtain ⟨m, scale, last, rfl⟩ := Decimal.exists_stripped decimal nonzero
    rw [pow_scaled, hasDigits_stripped (pow_emod_ten last _)] at few ⊢
    refine lt_of_le_of_lt ?_ few
    rw [abs_pow, abs_pow]
    have : 1 ≤ |m| := Int.one_le_abs (by omega)
    exact pow_le_pow_right₀ this lower

end Digits

/-! ### Products -/

/-- The squares of `x`, each of them rounded: what is left of the power of that exponent. -/
inductive Squared (mode : RoundingMode) (digits : ℕ) (x : ℚ) : ℕ → ℚ → Prop where
  | self : Squared mode digits x 1 x
  | square {k : ℕ} {y z : ℚ} (root : Squared mode digits x k y)
      (rounds : mode.Rounds (lastPlace digits (y * y)) (y * y) z) : Squared mode digits x (k + k) z

/-- The products of such squares, each of them rounded: what is left of the power of that exponent. -/
inductive Multiplied (mode : RoundingMode) (digits : ℕ) (x : ℚ) : ℕ → ℚ → Prop where
  | one : Multiplied mode digits x 0 1
  | times {k l : ℕ} {y s z : ℚ} (sofar : Multiplied mode digits x k y) (square : Squared mode digits x l s)
      (rounds : mode.Rounds (lastPlace digits (y * s)) (y * s) z) : Multiplied mode digits x (k + l) z

/-- `z` is as near to `x` as so many digits tell, and it is `x` if the digits at work can tell all of it. -/
structure Approximates (digits working : ℕ) (x z : ℚ) : Prop where
  near : |z - x| ≤ max |x| |z| * 10 ^ (-digits : ℤ)
  exact : HasDigits working x → z = x

section Products

variable {mode : RoundingMode} {digits k n : ℕ} {x y : ℚ}

theorem drifts_of_rounds {z : ℚ} (rounds : mode.Rounds (lastPlace digits x) x z) :
    Drifts (10 ^ (1 - digits : ℤ)) 1 x z :=
  drifts_of_abs_sub_le (ten_zpow_pos _).le (abs_sub_le_of_rounds rounds)

theorem unit_le_one (positive : 0 < digits) : (10 : ℚ) ^ (1 - digits : ℤ) ≤ 1 :=
  zpow_le_one_of_nonpos₀ (by norm_num) (by omega)

theorem drifts_of_squared (positive : 0 < digits) (squared : Squared mode digits x k y) :
    ∃ j, k = j + 1 ∧ Drifts (10 ^ (1 - digits : ℤ)) j (x ^ k) y := by
  induction squared with
  | self => exact ⟨0, rfl, by rw [pow_one]; exact drifts_self _ x⟩
  | square root rounds ih =>
    obtain ⟨j, rfl, drifts⟩ := ih
    refine ⟨j + j + 1, by omega, ?_⟩
    rw [pow_add]
    exact drifts_mul (unit_le_one positive) drifts drifts (drifts_of_rounds rounds)

theorem drifts_of_multiplied (positive : 0 < digits) (multiplied : Multiplied mode digits x n y) :
    Drifts (10 ^ (1 - digits : ℤ)) n (x ^ n) y := by
  induction multiplied with
  | one =>
    rw [pow_zero]
    exact drifts_self _ 1
  | times sofar square rounds ih =>
    obtain ⟨j, rfl, drifts⟩ := drifts_of_squared positive square
    rw [pow_add, ← add_assoc]
    exact drifts_mul (unit_le_one positive) ih drifts (drifts_of_rounds rounds)

theorem squared_eq_pow (few : ∀ l ≤ k, HasDigits digits (x ^ l)) (squared : Squared mode digits x k y) :
    y = x ^ k := by
  induction squared with
  | self => exact (pow_one x).symm
  | @square k y z root rounds ih =>
    have exact := few (k + k) le_rfl
    rw [ih fun l le => few l (by omega), ← pow_add, rounds_of_hasPlaces (hasDigits_iff.mp exact)] at rounds
    exact rounds

theorem multiplied_eq_pow (few : ∀ l ≤ n, HasDigits digits (x ^ l)) (multiplied : Multiplied mode digits x n y) :
    y = x ^ n := by
  induction multiplied with
  | one => exact (pow_zero x).symm
  | @times k l y s z sofar square rounds ih =>
    have exact := few (k + l) le_rfl
    rw [ih fun l le => few l (by omega), squared_eq_pow (fun l le => few l (by omega)) square, ← pow_add,
      rounds_of_hasPlaces (hasDigits_iff.mp exact)] at rounds
    exact rounds

/-- If the exponent has no more digits than there are guard digits, less one, these make up for all the factors. -/
theorem approximates_of_multiplied {place : ℤ} {extra : ℕ} (decimal : HasPlaces place x) (positive : 0 < digits)
    (short : n ≤ 10 ^ extra) (multiplied : Multiplied mode (digits + extra + 1) x n y) :
    Approximates digits (digits + extra + 1) (x ^ n) y := by
  constructor
  · have few : n * (10 : ℚ) ^ (1 - (digits + extra + 1 : ℕ) : ℤ) ≤ 10 ^ (-digits : ℤ) :=
      calc
        n * (10 : ℚ) ^ (1 - (digits + extra + 1 : ℕ) : ℤ)
          ≤ 10 ^ (extra : ℤ) * 10 ^ (1 - (digits + extra + 1 : ℕ) : ℤ) :=
            mul_le_mul_of_nonneg_right (by exact_mod_cast short) (ten_zpow_pos _).le
        _ = 10 ^ (-digits : ℤ) := by
          rw [← zpow_add₀ (by norm_num)]
          congr 1
          omega
    have least : (10 : ℚ) ^ (-digits : ℤ) < 1 := zpow_lt_one_of_neg₀ (by norm_num) (by omega)
    exact abs_sub_le_of_drifts (ten_zpow_pos _).le (unit_le_one (by omega)) few least
      (drifts_of_multiplied (by omega) multiplied)
  · intro all
    exact multiplied_eq_pow (fun l le => hasDigits_of_pow decimal (by omega) le all) multiplied

end Products

namespace Decimal

variable {math : MathSettings} {a b result base r : Decimal} {n : ℕ}

theorem bind_eq_ok {α β : Type} {m : Except ArithmeticFault α} {f : α → Except ArithmeticFault β} {b : β}
    (done : (m >>= f) = .ok b) : ∃ a, m = .ok a ∧ f a = .ok b := by
  cases m with
  | error fault => cases done
  | ok a => exact ⟨a, rfl, done⟩

theorem rounds_product (positive : 0 < math.precision) (done : (do (← checkedMul a b).round math) = .ok r) :
    math.rounding.Rounds (lastPlace math.precision (a.toRat * b.toRat)) (a.toRat * b.toRat) r.toRat := by
  obtain ⟨product, exact, rounded⟩ := bind_eq_ok done
  rw [← toRat_checkedMul exact]
  exact rounds_of_ok (rounding_round (isNormal_checked exact) positive) rounded

theorem powRounded_cases (some : n ≠ 0) (done : powRounded math result base n = .ok r) :
    ∃ next,
      (n % 2 = 0 ∧ next = result ∨ n % 2 = 1 ∧ (do (← checkedMul result base).round math) = .ok next) ∧
      (n / 2 = 0 ∧ r = next ∨ ∃ square, (do (← checkedMul base base).round math) = .ok square ∧
        powRounded math next square (n / 2) = .ok r) := by
  have rest (next : Decimal)
      (done : (if n / 2 = 0 then pure next
        else do powRounded math next (← (← checkedMul base base).round math) (n / 2)) = .ok r) :
      n / 2 = 0 ∧ r = next ∨ ∃ square, (do (← checkedMul base base).round math) = .ok square ∧
        powRounded math next square (n / 2) = .ok r := by
    split at done
    · rename_i last
      cases done
      exact .inl ⟨last, rfl⟩
    · rw [← bind_assoc] at done
      exact .inr (bind_eq_ok done)
  rw [powRounded, if_neg some] at done
  dsimp only at done
  split at done
  · rename_i odd
    rw [← bind_assoc] at done
    obtain ⟨next, product, done⟩ := bind_eq_ok done
    exact ⟨next, .inr ⟨odd, product⟩, rest next done⟩
  · rename_i even
    exact ⟨result, .inl ⟨by omega, rfl⟩, rest result done⟩

/-- The whole run, by the halving of the exponent: the factors so far and those that are to come make up the power. -/
theorem multiplied_powRounded (positive : 0 < math.precision) {x : ℚ} {k l : ℕ}
    (sofar : Multiplied math.rounding math.precision x k result.toRat)
    (square : Squared math.rounding math.precision x l base.toRat) (done : powRounded math result base n = .ok r) :
    Multiplied math.rounding math.precision x (k + l * n) r.toRat := by
  induction n using Nat.strongRecOn generalizing result base k l with
  | ind n ih =>
    rcases Nat.eq_zero_or_pos n with rfl | some
    · rw [powRounded, if_pos rfl] at done
      cases done
      exact sofar
    · obtain ⟨next, factor, rest⟩ := powRounded_cases some.ne' done
      have factors : Multiplied math.rounding math.precision x (k + l * (n % 2)) next.toRat := by
        rcases factor with ⟨even, rfl⟩ | ⟨odd, product⟩
        · rw [even]
          exact sofar
        · rw [odd, mul_one]
          exact sofar.times square (rounds_product positive product)
      rcases rest with ⟨last, rfl⟩ | ⟨root, product, done⟩
      · have single : n % 2 = n := by omega
        rwa [single] at factors
      · have all := ih (n / 2) (by omega) factors (square.square (rounds_product positive product)) done
        have count : k + l * (n % 2) + (l + l) * (n / 2) = k + l * n := by
          conv_rhs => rw [← Nat.mod_add_div n 2]
          ring
        rwa [count] at all

theorem toRat_one : one.toRat = 1 := by norm_num [toRat, one]

theorem hasPlaces_toRat (d : Decimal) : HasPlaces d.scale d.toRat := ⟨d.unscaled, toRat_eq d⟩

/-- The working digits of all but the greatest precisions are counted as they are. -/
theorem precision_guardSettings (room : math.precision + (Nat.toDigits 10 n).length + 1 < 2 ^ 32) :
    (guardSettings math n).precision = math.precision + (Nat.toDigits 10 n).length + 1 :=
  Nat.mod_eq_of_lt room

theorem powNatural_rounds (positive : 0 < math.precision)
    (room : math.precision + (Nat.toDigits 10 n).length + 1 < 2 ^ 32) (done : powNatural b n math = .ok r) :
    ∃ z, Approximates math.precision (guardSettings math n).precision (b.toRat ^ n) z ∧
      math.rounding.Rounds (lastPlace math.precision z) z r.toRat := by
  rw [powNatural, if_neg positive.ne'] at done
  obtain ⟨power, products, rounded⟩ := bind_eq_ok done
  have normal : power.IsNormal := normalizes_powRounded _ b n isNormal_one power products
  have start : Multiplied (guardSettings math n).rounding (guardSettings math n).precision b.toRat 0 one.toRat := by
    rw [toRat_one]
    exact .one
  have working := precision_guardSettings room
  have multiplied := multiplied_powRounded (by omega) start .self products
  rw [zero_add, one_mul, working] at multiplied
  rw [working]
  have short : n ≤ 10 ^ (Nat.toDigits 10 n).length :=
    ((Nat.length_toDigits_le_iff (by decide) Nat.length_toDigits_pos).mp le_rfl).le
  exact ⟨power.toRat, approximates_of_multiplied (hasPlaces_toRat b) positive short multiplied,
    rounds_of_ok (rounding_round normal positive) rounded⟩

theorem wrapSigned_natCast (few : n ≤ maxExponent) : wrapSigned 64 n = n := by
  have most : maxExponent = 999999999 := rfl
  have half : twoPow 64 = 18446744073709551616 := rfl
  rw [wrapSigned, half]
  exact Int.bmod_eq_of_le (by omega) (by omega)

theorem pow_ofInt {n : ℤ} (few : n.natAbs ≤ maxExponent) :
    pow b (ofInt n) math =
      if n = 0 then .ok one
      else powNatural b n.natAbs math >>= fun magnitude =>
        if 0 < n then .ok magnitude else div one magnitude math := by
  have fits : FitsSigned 64 n := by
    rw [fitsSigned_64_iff]
    have : maxExponent = 999999999 := rfl
    omega
  have integer := toInt64?_ofInt fits
  have magnitude : wrapSigned 64 n.natAbs ≤ maxExponent := by
    rw [wrapSigned_natCast few]
    exact_mod_cast few
  rw [pow, if_pos (isInteger_ofInt n), integer, Option.filter_some, if_pos (decide_eq_true magnitude)]
  rfl

theorem pow_cases {n : ℤ} (few : n.natAbs ≤ maxExponent) (done : pow b (ofInt n) math = .ok r) :
    n = 0 ∧ r = one ∨ 0 < n ∧ powNatural b n.natAbs math = .ok r ∨
      n < 0 ∧ ∃ m, powNatural b n.natAbs math = .ok m ∧ div one m math = .ok r := by
  rw [pow_ofInt few] at done
  split at done
  · rename_i none
    cases done
    exact .inl ⟨none, rfl⟩
  · obtain ⟨m, magnitude, done⟩ := bind_eq_ok done
    split at done
    · rename_i above
      cases done
      exact .inr (.inl ⟨above, magnitude⟩)
    · exact .inr (.inr ⟨by omega, m, magnitude, done⟩)

theorem rounds_inverse (positive : 0 < math.precision) (done : div one a math = .ok r) :
    math.rounding.Rounds (lastPlace math.precision a.toRat⁻¹) a.toRat⁻¹ r.toRat := by
  have nonzero : ¬ a.IsZero := by
    intro zero
    rw [div, if_pos zero] at done
    cases done
  rw [inv_eq_one_div, ← toRat_one]
  rcases rounding_div (a := one) nonzero positive with ⟨_, beyond⟩ | rounding
  · rw [beyond] at done
    cases done
  · exact rounds_of_ok rounding done

/-- A power is the exact power rounded if that needs no more digits than the products keep, or for a negative exponent,
where the inverse is made of a rounded number, than are asked for. Any other is rounded from an approximation; if the
exponent is negative, it is rounded twice. -/
theorem pow_rounds_approximation (positive : 0 < math.precision) {n : ℤ} (few : n.natAbs ≤ maxExponent)
    (room : math.precision + (Nat.toDigits 10 n.natAbs).length + 1 < 2 ^ 32)
    (done : pow b (ofInt n) math = .ok r) :
    (HasDigits (if 0 ≤ n then (guardSettings math n.natAbs).precision else math.precision) (b.toRat ^ n.natAbs) →
      math.rounding.Rounds (lastPlace math.precision (b.toRat ^ n)) (b.toRat ^ n) r.toRat) ∧
    ∃ z, Approximates math.precision (guardSettings math n.natAbs).precision (b.toRat ^ n.natAbs) z ∧
      (0 ≤ n → math.rounding.Rounds (lastPlace math.precision z) z r.toRat) ∧
      (n < 0 → ∃ m, math.rounding.Rounds (lastPlace math.precision z) z m ∧
        math.rounding.Rounds (lastPlace math.precision m⁻¹) m⁻¹ r.toRat) := by
  rcases pow_cases few done with ⟨rfl, rfl⟩ | ⟨above, power⟩ | ⟨below, m, power, inverse⟩
  · have single : HasDigits math.precision 1 :=
      ⟨1, 0, by simpa using one_lt_pow₀ (by norm_num) positive.ne', by simp⟩
    have own : math.rounding.Rounds (lastPlace math.precision 1) 1 one.toRat :=
      (rounds_of_hasPlaces (hasDigits_iff.mp single)).mpr toRat_one
    rw [Int.natAbs_zero, pow_zero, zpow_zero]
    refine ⟨fun _ => own, 1, ⟨?_, fun _ => rfl⟩, fun _ => own, nofun⟩
    rw [sub_self, abs_zero]
    positivity
  · obtain ⟨k, rfl⟩ := Int.eq_ofNat_of_zero_le above.le
    obtain ⟨z, approximates, rounds⟩ := powNatural_rounds positive room power
    refine ⟨?_, z, approximates, fun _ => rounds, fun below => absurd below (by omega)⟩
    rw [if_pos above.le]
    intro all
    rw [approximates.exact all, Int.natAbs_natCast, ← zpow_natCast] at rounds
    exact rounds
  · obtain ⟨k, rfl⟩ : ∃ k : ℕ, n = -k := ⟨n.natAbs, by omega⟩
    obtain ⟨z, approximates, rounds⟩ := powNatural_rounds positive room power
    have last := rounds_inverse positive inverse
    refine ⟨?_, z, approximates, fun above => absurd above (by omega), fun _ => ⟨m.toRat, rounds, last⟩⟩
    rw [if_neg (by omega)]
    intro all
    have working : HasDigits (guardSettings math (-(k : ℤ)).natAbs).precision (b.toRat ^ (-(k : ℤ)).natAbs) :=
      hasDigits_mono (by rw [precision_guardSettings room]; omega) all
    rw [approximates.exact working, rounds_of_hasPlaces (hasDigits_iff.mp all), Int.natAbs_neg, Int.natAbs_natCast,
      ← zpow_natCast] at rounds
    rw [zpow_neg, ← rounds]
    exact last

/-- The inverse of 27 to one digit, by way of 30. -/
theorem pow_rounds_approximation_inverse :
    let b : Decimal := ⟨3, 0⟩
    pow b (ofInt (-3)) ⟨1, .halfEven⟩ = .ok ⟨3, 2⟩ ∧
      ∃ z, Approximates 1 (guardSettings ⟨1, .halfEven⟩ 3).precision (b.toRat ^ 3) z := by
  intro b
  have done : pow b (ofInt (-3)) ⟨1, .halfEven⟩ = .ok ⟨3, 2⟩ := by decide +kernel
  obtain ⟨z, approximates, _⟩ := (pow_rounds_approximation (by decide) (n := -3) (by decide) (by decide) done).2
  exact ⟨done, z, approximates⟩

-- at the greatest precision the count of working digits has wrapped round to one, and so 225 is 200
example : pow ⟨15, 0⟩ (ofInt 2) ⟨4294967295, .halfEven⟩ = .ok ⟨2, -2⟩ := by decide +kernel

/-- Powers that are not the exact ones rounded: the inverse of a number that was rounded before, a sum that was rounded
to a tie before, and digits that are lost although none may be. -/
theorem pow_not_rounded_once :
    (pow ⟨3, 0⟩ (ofInt (-3)) ⟨1, .halfEven⟩ = .ok ⟨3, 2⟩ ∧
      ¬ RoundingMode.halfEven.Rounds (lastPlace 1 ((⟨3, 0⟩ : Decimal).toRat ^ (-3 : ℤ)))
        ((⟨3, 0⟩ : Decimal).toRat ^ (-3 : ℤ)) (⟨3, 2⟩ : Decimal).toRat) ∧
    (pow ⟨15812, 4⟩ (ofInt 2) ⟨1, .halfEven⟩ = .ok ⟨2, 0⟩ ∧
      ¬ RoundingMode.halfEven.Rounds (lastPlace 1 ((⟨15812, 4⟩ : Decimal).toRat ^ (2 : ℤ)))
        ((⟨15812, 4⟩ : Decimal).toRat ^ (2 : ℤ)) (⟨2, 0⟩ : Decimal).toRat) ∧
    (pow ⟨10001, 4⟩ (ofInt 2) ⟨1, .unnecessary⟩ = .ok ⟨1, 0⟩ ∧
      ¬ HasDigits 1 ((⟨10001, 4⟩ : Decimal).toRat ^ (2 : ℤ))) := by
  refine ⟨⟨by decide +kernel, ?_⟩, ⟨by decide +kernel, ?_⟩, by decide +kernel, ?_⟩
  · have value : (⟨3, 0⟩ : Decimal).toRat ^ (-3 : ℤ) = 1 / 27 := by norm_num [toRat]
    have place : lastPlace 1 (1 / 27) = 2 := by
      rw [lastPlace, log_eq (k := -2) (by norm_num [abs_of_pos]) (by norm_num [abs_of_pos])]
      norm_num
    rw [value, place, toRat_eq, rounds_scaled_iff]
    norm_num [RoundingMode.Takes, abs_of_neg]
  · have value : (⟨15812, 4⟩ : Decimal).toRat ^ (2 : ℤ) = 250019344 / 10 ^ 8 := by norm_num [toRat]
    have place : lastPlace 1 (250019344 / 10 ^ 8) = 0 := by
      rw [lastPlace, log_eq (k := 0) (by norm_num [abs_of_pos]) (by norm_num [abs_of_pos])]
      norm_num
    rw [value, place, toRat_eq, rounds_scaled_iff]
    norm_num [RoundingMode.Takes, abs_of_neg]
  · have value : (⟨10001, 4⟩ : Decimal).toRat ^ (2 : ℤ) = (100020001 : ℤ) * 10 ^ (-8 : ℤ) := by
      norm_num [toRat]
    rw [value, hasDigits_stripped (by decide)]
    decide

end Decimal

end TemplateExpr
