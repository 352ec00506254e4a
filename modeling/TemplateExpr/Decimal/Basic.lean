import TemplateExpr.Text.Digits
/-!
Decimal numbers of unbounded length. A decimal is an integer, its unscaled part, over a power of ten,
its scale. This module holds the type, its normal form, the exact operations and the integer views;
rounding, quotients, powers and text are modules of their own.
-/
namespace TemplateExpr

structure Decimal where
  unscaled : Int
  scale : Int
  deriving DecidableEq

inductive ArithmeticFault where
  | divisionByZero
  | modulusByZero
  | nonTerminating
  | invalidPower
  | scaleOutOfRange
  | roundingNecessary
  | invalidShiftCount (text : String)
  | notCodePoint (code : Int)
  | negativeRoot (n : Decimal)
  | rootOutOfRange (n : Decimal)
  | argumentOutOfRange (function : String) (n : Decimal)
  | reported (text : String)
  deriving DecidableEq

namespace Decimal

/-- Scales are signed 32-bit integers. -/
def minScale : Int := -2147483648

def maxScale : Int := 2147483647

/-- Zero has scale 0. Any other number keeps no trailing zero in its unscaled part, unless its scale
is the least one. -/
structure IsNormal (d : Decimal) : Prop where
  scale_of_zero : d.unscaled = 0 → d.scale = 0
  minScale_le : minScale ≤ d.scale
  le_maxScale : d.scale ≤ maxScale
  stripped : d.unscaled ≠ 0 → d.unscaled % 10 = 0 → d.scale = minScale

/-- A number without as many of its trailing zeros as the least scale allows, but at most `2 ^ k - 1` of
them. They go in blocks, each half as long as the one before. -/
def strip : Nat → Decimal → Decimal
  | 0, d => d
  | k + 1, d =>
    let zeros := twoPow k
    if minScale + zeros ≤ d.scale ∧ d.unscaled % tenPow zeros = 0 then
      strip k ⟨d.unscaled / tenPow zeros, d.scale - zeros⟩
    else strip k d

def normalize (unscaled scale : Int) : Decimal :=
  if unscaled = 0 then ⟨0, 0⟩
  else if unscaled % 10 ≠ 0 then ⟨unscaled, scale⟩
  else strip (Nat.log2 (Nat.log2 unscaled.natAbs / 3) + 1) ⟨unscaled, scale⟩

/-- `d` is `unscaled * 10 ^ (-scale)` without its trailing zeros, as far as the least scale allows. -/
def Strips (unscaled scale : Int) (d : Decimal) : Prop :=
  ∃ zeros : Nat, unscaled = d.unscaled * tenPow zeros ∧ scale = d.scale + zeros ∧
    (zeros = 0 ∨ minScale ≤ d.scale) ∧ (minScale < d.scale → d.unscaled % 10 ≠ 0)

theorem strip_strips {k : Nat} {d : Decimal}
    (few : minScale + twoPow k ≤ d.scale → d.unscaled % tenPow (twoPow k) ≠ 0) :
    Strips d.unscaled d.scale (strip k d) := by
  induction k generalizing d with
  | zero =>
    refine ⟨0, (Int.mul_one _).symm, (Int.add_zero _).symm, Or.inl rfl, fun above => ?_⟩
    exact few above
  | succ k ih =>
    rw [strip]
    split
    · rename_i fits
      obtain ⟨room, divides⟩ := fits
      have whole : d.unscaled = d.unscaled / tenPow (twoPow k) * tenPow (twoPow k) :=
        (Int.ediv_mul_cancel (Int.dvd_of_emod_eq_zero divides)).symm
      obtain ⟨zeros, value, place, least, last⟩ :=
        ih (d := ⟨d.unscaled / tenPow (twoPow k), d.scale - twoPow k⟩) (by
          intro more twice
          refine few ?_ ?_
          · rw [twoPow_succ]
            simp only at more
            omega
          · rw [whole, tenPow_twoPow_succ, Int.natCast_mul]
            exact Int.emod_eq_zero_of_dvd
              (Int.mul_dvd_mul (Int.dvd_of_emod_eq_zero twice) (Int.dvd_refl _)))
      simp only at value place
      refine ⟨zeros + twoPow k, ?_, ?_, ?_, last⟩
      · rw [tenPow_add, Int.natCast_mul, ← Int.mul_assoc, ← value]
        exact whole
      · omega
      · right
        rcases least with none | some
        · omega
        · exact some
    · rename_i stays
      refine ih fun room divides => stays ⟨room, divides⟩

theorem normalize_zero (scale : Int) : normalize 0 scale = ⟨0, 0⟩ := rfl

theorem normalize_strips {unscaled : Int} (scale : Int) (nonzero : unscaled ≠ 0) :
    Strips unscaled scale (normalize unscaled scale) := by
  rw [normalize, if_neg nonzero]
  split
  · rename_i last
    exact ⟨0, (Int.mul_one _).symm, (Int.add_zero _).symm, Or.inl rfl, fun _ => last⟩
  · refine strip_strips (d := ⟨unscaled, scale⟩) fun _ divides => ?_
    have bound := lt_twoPow_log2_succ (Nat.log2 unscaled.natAbs / 3)
    have long : unscaled.natAbs < tenPow (twoPow (Nat.log2 (Nat.log2 unscaled.natAbs / 3) + 1)) :=
      lt_tenPow_twoPow (by omega)
    have short := Nat.le_of_dvd (Int.natAbs_pos.mpr nonzero)
      (Int.natAbs_dvd_natAbs.mpr (Int.dvd_of_emod_eq_zero divides))
    rw [Int.natAbs_natCast] at short
    omega

def checked (unscaled scale : Int) : Except ArithmeticFault Decimal :=
  let d := normalize unscaled scale
  if minScale ≤ d.scale ∧ d.scale ≤ maxScale then .ok d else .error .scaleOutOfRange

def ofInt (n : Int) : Decimal := normalize n 0

def zero : Decimal := ⟨0, 0⟩

def one : Decimal := ⟨1, 0⟩

def digits (d : Decimal) : List Char := Digits.ofNat d.unscaled.natAbs

def digitCount (n : Int) : Nat := (Digits.ofNat n.natAbs).length

def IsZero (d : Decimal) : Prop := d.unscaled = 0

def IsNegative (d : Decimal) : Prop := d.unscaled < 0

def IsPositive (d : Decimal) : Prop := 0 < d.unscaled

/-- No fractional part: a normal decimal has one exactly if its scale is positive. -/
def IsInteger (d : Decimal) : Prop := d.scale ≤ 0

instance (d : Decimal) : Decidable d.IsZero := inferInstanceAs (Decidable (d.unscaled = 0))

instance (d : Decimal) : Decidable d.IsNegative := inferInstanceAs (Decidable (d.unscaled < 0))

instance (d : Decimal) : Decidable d.IsPositive := inferInstanceAs (Decidable (0 < d.unscaled))

instance (d : Decimal) : Decidable d.IsInteger := inferInstanceAs (Decidable (d.scale ≤ 0))

/-- Digits before the decimal point; zero or less for a magnitude below one. -/
def integerDigits (d : Decimal) : Int := digitCount d.unscaled - d.scale

def neg (d : Decimal) : Decimal := ⟨-d.unscaled, d.scale⟩

def abs (d : Decimal) : Decimal := ⟨d.unscaled.natAbs, d.scale⟩

def align (a b : Decimal) : Int × Int × Int :=
  let scale := max a.scale b.scale
  (a.unscaled * tenPow (scale - a.scale).toNat, b.unscaled * tenPow (scale - b.scale).toNat, scale)

def add (a b : Decimal) : Decimal :=
  let (m, n, scale) := align a b
  normalize (m + n) scale

def sub (a b : Decimal) : Decimal :=
  let (m, n, scale) := align a b
  normalize (m - n) scale

def mul (a b : Decimal) : Decimal := normalize (a.unscaled * b.unscaled) (a.scale + b.scale)

def checkedMul (a b : Decimal) : Except ArithmeticFault Decimal :=
  checked (a.unscaled * b.unscaled) (a.scale + b.scale)

/-- The order of the numbers denoted. Sign and length decide before anything is rescaled. -/
def compare (a b : Decimal) : Ordering :=
  (Ord.compare a.unscaled.sign b.unscaled.sign).then <|
    if a.IsZero then .eq
    else
      let bySize := Ord.compare a.integerDigits b.integerDigits
      (if a.IsNegative then bySize.swap else bySize).then <|
        let (m, n, _) := align a b
        Ord.compare m n

def trunc (d : Decimal) : Int :=
  if d.integerDigits ≤ 0 then 0
  else if d.scale ≤ 0 then d.unscaled * tenPow (-d.scale).toNat
  else d.unscaled.tdiv (tenPow d.scale.toNat)

def floor (d : Decimal) : Int :=
  if d.integerDigits ≤ 0 then if d.IsNegative then -1 else 0
  else if d.scale ≤ 0 then d.trunc
  else d.unscaled.fdiv (tenPow d.scale.toNat)

def truncInt64? (d : Decimal) : Option Int :=
  if 19 < d.integerDigits then none
  else if FitsSigned 64 d.trunc then some d.trunc else none

def toInt64? (d : Decimal) : Option Int :=
  if d.IsInteger then d.truncInt64? else none

def toInt32? (d : Decimal) : Option Int :=
  d.toInt64?.filter fun n => FitsSigned 32 n

end Decimal

end TemplateExpr
