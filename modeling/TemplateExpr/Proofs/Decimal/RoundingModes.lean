import TemplateExpr.Decimal.Rounding
import Mathlib.Data.Rat.Floor
import Mathlib.Algebra.Order.Field.Power
import Mathlib.Algebra.Ring.Parity
import Mathlib.Order.Compare
import Mathlib.Tactic.Linarith
import Mathlib.Tactic.Ring
/-!
What the rounding modes mean. A mode takes a number to an integer next to it, and there is only one that it may
take it to. Digits decide as the numbers do: the integer that is left when the digits behind the point are cut off
moves away from zero exactly when the mode wants the other neighbour.
-/
namespace TemplateExpr

namespace RoundingMode

/-- The mode takes `x` to `n`. Up is away from zero and down is towards zero. -/
def Takes (mode : RoundingMode) (x : ℚ) (n : ℤ) : Prop :=
  match mode with
  | up => |n - x| < 1 ∧ |x| ≤ |(n : ℚ)|
  | down => |n - x| < 1 ∧ |(n : ℚ)| ≤ |x|
  | ceiling => |n - x| < 1 ∧ x ≤ n
  | floor => |n - x| < 1 ∧ n ≤ x
  | halfUp => |n - x| ≤ 1 / 2 ∧ (|n - x| = 1 / 2 → |x| ≤ |(n : ℚ)|)
  | halfDown => |n - x| ≤ 1 / 2 ∧ (|n - x| = 1 / 2 → |(n : ℚ)| ≤ |x|)
  | halfEven => |n - x| ≤ 1 / 2 ∧ (|n - x| = 1 / 2 → Even n)
  | unnecessary => x = n

variable {mode : RoundingMode} {x : ℚ} {m n : ℤ}

theorem abs_sub_lt_one (takes : mode.Takes x n) : |n - x| < 1 := by
  cases mode <;> simp only [Takes] at takes
  case unnecessary => simp [takes]
  all_goals linarith [takes.1]

theorem takes_self (mode : RoundingMode) (n : ℤ) : mode.Takes n n := by
  cases mode <;> simp [Takes]

theorem between_of_near (below : |m - x| < 1) (above : |n - x| < 1) (less : m < n) :
    n = m + 1 ∧ m < x ∧ x < n := by
  rw [abs_lt] at below above
  have close : (n : ℚ) < (m + 2 : ℤ) := by push_cast; linarith
  have next : n = m + 1 := by
    have := Int.cast_lt.mp close
    omega
  subst next
  push_cast at *
  exact ⟨rfl, by linarith, by linarith⟩

theorem abs_between (low : m < x) (high : x < (m + 1 : ℤ)) :
    |(m : ℚ)| < |x| ∧ |x| < |((m + 1 : ℤ) : ℚ)| ∨ |((m + 1 : ℤ) : ℚ)| < |x| ∧ |x| < |(m : ℚ)| := by
  rcases Int.lt_or_le m 0 with negative | positive
  · right
    have below : ((m + 1 : ℤ) : ℚ) ≤ 0 := by exact_mod_cast (by omega : m + 1 ≤ 0)
    rw [abs_of_nonpos below, abs_of_neg (by linarith), abs_of_neg (by linarith)]
    constructor <;> linarith
  · left
    have above : (0 : ℚ) ≤ m := by exact_mod_cast positive
    rw [abs_of_nonneg above, abs_of_pos (by linarith), abs_of_pos (by linarith)]
    exact ⟨low, high⟩

theorem not_takes_both (low : m < x) (high : x < (m + 1 : ℤ)) :
    ¬ (mode.Takes x m ∧ mode.Takes x (m + 1)) := by
  rintro ⟨first, second⟩
  have sides := abs_between low high
  have below : |m - x| = x - m := by rw [abs_sub_comm, abs_of_pos (by linarith)]
  have above : |((m + 1 : ℤ) : ℚ) - x| = m + 1 - x := by
    rw [abs_of_pos (by linarith)]
    push_cast
    ring
  cases mode <;> simp only [Takes, below, above] at first second
  case up => rcases sides with sides | sides <;> linarith [first.2, second.2]
  case down => rcases sides with sides | sides <;> linarith [first.2, second.2]
  case ceiling => linarith [first.2]
  case floor => linarith [second.2]
  case unnecessary => linarith
  all_goals
    have tie := first.2 (by linarith [first.1, second.1])
    have tie' := second.2 (by linarith [first.1, second.1])
  case halfUp => rcases sides with sides | sides <;> linarith
  case halfDown => rcases sides with sides | sides <;> linarith
  case halfEven => exact absurd tie' (Int.not_even_iff_odd.mpr tie.add_one)

theorem takes_unique (first : mode.Takes x m) (second : mode.Takes x n) : m = n := by
  wlog less : m < n generalizing m n
  · by_contra other
    exact other (this second first (by omega)).symm
  obtain ⟨rfl, low, high⟩ := between_of_near (abs_sub_lt_one first) (abs_sub_lt_one second) less
  exact absurd ⟨first, second⟩ (not_takes_both low high)

section Mirrored

/-- The mode that does below zero what this one does above it. -/
def mirror : RoundingMode → RoundingMode
  | ceiling => floor
  | floor => ceiling
  | mode => mode

theorem takes_mirror : mode.mirror.Takes (-x) (-n) ↔ mode.Takes x n := by
  have distance : |-(n : ℚ) - -x| = |n - x| := by rw [neg_sub_neg, abs_sub_comm]
  cases mode <;> simp only [mirror, Takes, Int.cast_neg, distance, abs_neg, even_neg, neg_le_neg_iff, neg_inj]

theorem bumps?_mirror (negative odd : Bool) (half : Ordering) :
    mode.mirror.bumps? (!negative) odd half = mode.bumps? negative odd half := by
  cases mode <;> simp [mirror, bumps?]

end Mirrored

theorem bumps?_eq_none_iff {negative odd : Bool} {half : Ordering} :
    mode.bumps? negative odd half = none ↔ mode = unnecessary := by
  cases mode <;> simp [bumps?]

/-- Above zero, the integer below moves exactly if the mode takes the number to the one above. -/
theorem takes_of_bumps {odd bump : Bool} {half : Ordering} (positive : 0 ≤ m) (low : m < x) (high : x < m + 1)
    (middle : half.Compares (x - m) (1 / 2)) (parity : odd = true ↔ ¬ Even m)
    (bumps : mode.bumps? false odd half = some bump) : mode.Takes x (if bump then m + 1 else m) := by
  have nonneg : (0 : ℚ) ≤ m := by exact_mod_cast positive
  have below : |m - x| = x - m := by rw [abs_sub_comm, abs_of_pos (by linarith)]
  have above : |m + 1 - x| = m + 1 - x := abs_of_pos (by linarith)
  have size : |x| = x := abs_of_pos (by linarith)
  have sizeBelow : |(m : ℚ)| = m := abs_of_nonneg nonneg
  have sizeAbove : |(m : ℚ) + 1| = m + 1 := abs_of_pos (by linarith)
  have parityAbove : Even (m + 1) ↔ ¬ Even m := Int.even_add_one
  cases mode <;> simp only [bumps?, Option.some.injEq, reduceCtorEq] at bumps <;> subst bumps
  case up | down | ceiling | floor =>
    simp only [Takes, Bool.not_false, Bool.false_eq_true, ↓reduceIte, Int.cast_add, Int.cast_one, below, above, size,
      sizeBelow, sizeAbove]
    constructor <;> linarith
  all_goals cases half <;> simp only [Ordering.Compares, gt_iff_lt] at middle
  case halfEven.eq =>
    -- a tie stays where it is if the integer below is even
    have even : Even (if odd then m + 1 else m) := by
      cases odd
      · simpa using parity
      · simpa [parityAbove] using parity
    cases odd
    · simp only [Bool.false_eq_true, ↓reduceIte, Takes, Ordering.eq_beq_gt, BEq.rfl, Bool.and_false, Bool.or_self,
        below] at even ⊢
      exact ⟨by linarith, fun _ => even⟩
    · simp only [↓reduceIte, Takes, Ordering.eq_beq_gt, BEq.rfl, Bool.and_self, Bool.or_true, Int.cast_add, Int.cast_one,
        above] at even ⊢
      exact ⟨by linarith, fun _ => even⟩
  all_goals
    simp only [Takes, bne_iff_ne, bne_self_eq_false, ne_eq, reduceCtorEq, not_false_eq_true, BEq.rfl, Ordering.lt_beq_gt,
      Ordering.lt_beq_eq, Ordering.eq_beq_gt, Ordering.gt_beq_eq, Bool.false_and, Bool.or_false, Bool.false_eq_true,
      ↓reduceIte, Int.cast_add, Int.cast_one, below, above, size, sizeBelow, sizeAbove]
    constructor
    · linarith
    · intro tie
      linarith

end RoundingMode

/-- What is left of `x` without its part below one; `lost` tells whether there was any. -/
structure Cut (x : ℚ) (m : ℤ) (lost : Bool) : Prop where
  nonneg : 0 ≤ m
  le : m ≤ x
  lt : x < m + 1
  exact : lost = false ↔ x = m

namespace Cut

open RoundingMode

variable {x : ℚ} {m : ℤ} {lost : Bool} {mode : RoundingMode}

theorem self (nonneg : 0 ≤ m) : Cut m m false := ⟨nonneg, le_rfl, lt_add_one _, iff_of_true rfl rfl⟩

theorem split (x : ℚ) (m : ℤ) {n : ℕ} (positive : 0 < n) : x / n - m.tdiv n = (m.tmod n + (x - m)) / n := by
  have positive : (0 : ℚ) < n := by exact_mod_cast positive
  have parts : (n * m.tdiv n + m.tmod n : ℚ) = m := by exact_mod_cast Int.mul_tdiv_add_tmod m n
  field_simp
  linarith

theorem divided (cut : Cut x m lost) {n : ℕ} (pos : 0 < n) : Cut (x / n) (m.tdiv n) (lost || m.tmod n != 0) := by
  have positive : (0 : ℚ) < n := by exact_mod_cast pos
  have least : (0 : ℚ) ≤ m.tmod n := by exact_mod_cast Int.tmod_nonneg _ cut.nonneg
  have most : (m.tmod n + 1 : ℚ) ≤ n := by exact_mod_cast Int.tmod_lt_of_pos m (by exact_mod_cast pos)
  have difference := split x m pos
  have below := cut.le
  have above := cut.lt
  constructor
  · exact Int.tdiv_nonneg cut.nonneg (Int.natCast_nonneg _)
  · rw [← sub_nonneg, difference]
    apply div_nonneg <;> linarith
  · rw [← sub_lt_iff_lt_add', difference, div_lt_one positive]
    linarith
  · rw [← sub_eq_zero (a := x / _), difference, Bool.or_eq_false_iff, bne_eq_false_iff_eq, cut.exact]
    constructor
    · rintro ⟨whole, none⟩
      simp [whole, none]
    · intro none
      have sum := (div_eq_zero_iff.mp none).resolve_right positive.ne'
      have rest : (m.tmod n : ℚ) = 0 := by linarith
      exact ⟨by linarith, by exact_mod_cast rest⟩

theorem two_dvd_tenPow {drop : ℕ} (positive : 0 < drop) : 2 ∣ tenPow drop := by
  obtain ⟨k, rfl⟩ := Nat.exists_eq_succ_of_ne_zero positive.ne'
  rw [tenPow_succ]
  omega

theorem middle (cut : Cut x m lost) {drop : ℕ} (behind : lost = true → 0 < drop) :
    ((Ord.compare ((m.tmod (tenPow drop)).natAbs * 2) (tenPow drop)).then (if lost then .gt else .eq)).Compares
      (x / tenPow drop - m.tdiv (tenPow drop)) (1 / 2) := by
  have positive : (0 : ℚ) < tenPow drop := by exact_mod_cast tenPow_pos drop
  have below := cut.le
  have above := cut.lt
  rw [split x m (tenPow_pos drop)]
  obtain ⟨rest, digits⟩ := Int.eq_ofNat_of_zero_le (Int.tmod_nonneg (tenPow drop) cut.nonneg)
  rw [digits, Int.natAbs_natCast, Int.cast_natCast]
  rcases lt_trichotomy (rest * 2) (tenPow drop) with less | same | greater
  · rw [compare_lt_iff_lt.mpr less]
    have fewer : (rest : ℚ) * 2 + (x - m) * 2 < tenPow drop := by
      cases lost with
      | false =>
        rw [cut.exact.mp rfl, sub_self, zero_mul, add_zero]
        exact_mod_cast less
      | true =>
        -- a power of ten is even, so there is room for one more unit
        have even := two_dvd_tenPow (behind rfl)
        have room : rest * 2 + 2 ≤ tenPow drop := by omega
        have room : (rest : ℚ) * 2 + 2 ≤ tenPow drop := by exact_mod_cast room
        linarith
    change _ < 1 / 2
    rw [div_lt_iff₀ positive]
    linarith
  · rw [compare_eq_iff_eq.mpr same]
    have half : (rest : ℚ) * 2 = tenPow drop := by exact_mod_cast same
    cases lost with
    | false =>
      change _ = 1 / 2
      rw [cut.exact.mp rfl, sub_self, add_zero, div_eq_iff positive.ne']
      linarith
    | true =>
      have apart : m < x := lt_of_le_of_ne below fun same => nomatch cut.exact.mpr same.symm
      change 1 / 2 < _
      rw [lt_div_iff₀ positive]
      linarith
  · rw [compare_gt_iff_gt.mpr greater]
    have more : (tenPow drop : ℚ) < rest * 2 := by exact_mod_cast greater
    change 1 / 2 < _
    rw [lt_div_iff₀ positive]
    linarith

theorem strict (cut : Cut x m true) : m < x :=
  lt_of_le_of_ne cut.le fun same => nomatch cut.exact.mpr same.symm

theorem not_integer (cut : Cut x m true) (n : ℤ) : x ≠ n := by
  rintro rfl
  have below : m < n := by exact_mod_cast cut.strict
  have above : n < m + 1 := by exact_mod_cast cut.lt
  omega

end Cut

/-- What is left of a number of either sign without its part below one. -/
def CutsTo (negative : Bool) (x : ℚ) (m : ℤ) (lost : Bool) : Prop :=
  if negative then Cut (-x) (-m) lost else Cut x m lost

namespace CutsTo

open RoundingMode

variable {negative lost : Bool} {x : ℚ} {m : ℤ} {mode : RoundingMode}

theorem divided (cut : CutsTo negative x m lost) {n : ℕ} (positive : 0 < n) :
    CutsTo negative (x / n) (m.tdiv n) (lost || m.tmod n != 0) := by
  cases negative with
  | false => exact Cut.divided cut positive
  | true =>
    have mirrored := Cut.divided cut positive
    rw [neg_div, Int.neg_tdiv, Int.neg_tmod] at mirrored
    have same : (-(m.tmod n) != 0) = (m.tmod n != 0) := by simp only [bne, beq_eq_decide, neg_eq_zero]
    rw [same] at mirrored
    exact mirrored

theorem neg (cut : CutsTo negative x m lost) : CutsTo (!negative) (-x) (-m) lost := by
  cases negative with
  | false =>
    unfold CutsTo
    rw [Bool.not_false, if_pos rfl, neg_neg, neg_neg]
    exact cut
  | true => exact cut

theorem negative_eq (cut : CutsTo negative x m lost) (nonzero : m ≠ 0) : negative = decide (m < 0) := by
  cases negative with
  | false =>
    have := Cut.nonneg cut
    simp only [Bool.false_eq, decide_eq_false_iff_not]
    omega
  | true =>
    have := Cut.nonneg cut
    simp only [Bool.true_eq, decide_eq_true_eq]
    omega

theorem bounds (cut : CutsTo negative x m lost) : (m.natAbs : ℚ) ≤ |x| ∧ |x| < m.natAbs + 1 := by
  rw [Nat.cast_natAbs, Int.cast_abs]
  cases negative with
  | false =>
    have nonneg : (0 : ℚ) ≤ m := by exact_mod_cast Cut.nonneg cut
    have below := Cut.le cut
    rw [abs_of_nonneg nonneg, abs_of_nonneg (nonneg.trans below)]
    exact ⟨below, Cut.lt cut⟩
  | true =>
    have nonneg : (0 : ℚ) ≤ -m := by exact_mod_cast Cut.nonneg cut
    have below := Cut.le cut
    have above := Cut.lt cut
    push_cast at below above
    rw [← abs_neg, ← abs_neg x, abs_of_nonneg nonneg, abs_of_nonneg (nonneg.trans below)]
    exact ⟨below, above⟩

theorem exact (cut : CutsTo negative x m false) : x = m := by
  cases negative with
  | false => exact Cut.exact cut |>.mp rfl
  | true =>
    have same := (Cut.exact cut).mp rfl
    rw [Int.cast_neg] at same
    exact neg_inj.mp same

theorem not_integer (cut : CutsTo negative x m true) (n : ℤ) : x ≠ n := by
  cases negative with
  | false => exact Cut.not_integer cut n
  | true =>
    intro same
    apply Cut.not_integer cut (-n)
    rw [same, Int.cast_neg]

theorem takes (cut : CutsTo negative x m lost) {drop : ℕ} (behind : lost = true → 0 < drop)
    (inexact : (lost || m.tmod (tenPow drop) != 0) = true) {bump : Bool}
    (bumps : mode.bumps? negative (m.tdiv (tenPow drop) % 2 != 0)
      ((Ord.compare ((m.tmod (tenPow drop)).natAbs * 2) (tenPow drop)).then (if lost then .gt else .eq)) = some bump) :
    mode.Takes (x / tenPow drop)
      (if bump then if negative then m.tdiv (tenPow drop) - 1 else m.tdiv (tenPow drop) + 1
        else m.tdiv (tenPow drop)) := by
  have parity (k : ℤ) : (k % 2 != 0) = true ↔ ¬ Even k := by rw [bne_iff_ne, Int.even_iff]
  have further := cut.divided (tenPow_pos drop)
  rw [inexact] at further
  cases negative with
  | false =>
    have further : Cut _ _ true := further
    exact takes_of_bumps further.nonneg further.strict further.lt (Cut.middle cut behind) (parity _) bumps
  | true =>
    have further : Cut _ _ true := further
    have middle := Cut.middle cut behind
    rw [Int.neg_tmod, Int.natAbs_neg, Int.neg_tdiv, neg_div] at middle
    rw [← bumps?_mirror] at bumps
    have mirrored :=
      takes_of_bumps further.nonneg further.strict further.lt middle ((parity _).trans even_neg.symm.not) bumps
    rw [← takes_mirror]
    convert mirrored using 1
    cases bump <;> simp
    ring

end CutsTo

end TemplateExpr
