import TemplateExpr.Decimal.Rounding
/-!
Division of decimals: the quotient to a limited number of digits, the exact quotient where it has a
finite expansion, and the integer quotients with their remainder.
-/
namespace TemplateExpr.Decimal

/-- How often `p` divides `n`, and what is left. Zero is left alone. -/
def removeFactor (p n : Nat) : Nat × Nat :=
  if 1 < p ∧ n ≠ 0 ∧ n % p = 0 then
    let (count, rest) := removeFactor p (n / p)
    (count + 1, rest)
  else (0, n)
termination_by n
decreasing_by
  rename_i h
  exact Nat.div_lt_self (by omega) h.1

def maxShift : Nat := 4294967295

/-- The quotient itself, which has a finite expansion exactly if the reduced denominator has no prime
factors but 2 and 5. -/
def divExact (a b : Decimal) : Except ArithmeticFault Decimal :=
  let common := Int.gcd a.unscaled b.unscaled
  let numerator := a.unscaled.tdiv common * b.unscaled.sign
  let denominator := b.unscaled.natAbs / common
  let (twos, oddPart) := removeFactor 2 denominator
  let (fives, rest) := removeFactor 5 oddPart
  if rest ≠ 1 then .error .nonTerminating
  else
    let places := max twos fives
    if maxShift < places then .error .scaleOutOfRange
    else checked ((numerator * tenPow places).tdiv denominator) (a.scale - b.scale + places)

/-- The quotient to the digits asked for. It is first cut two digits further; what is lost by that only
has to be known to be non-zero. -/
def div (a b : Decimal) (math : MathSettings) : Except ArithmeticFault Decimal :=
  if b.IsZero then .error .divisionByZero
  else if a.IsZero then .ok zero
  else if math.precision = 0 then divExact a b
  else
    let shift := math.precision + 2 + digitCount b.unscaled - digitCount a.unscaled
    if maxShift < shift then .error .scaleOutOfRange
    else
      let scaled := a.unscaled * tenPow shift
      roundSignificant (scaled.tdiv b.unscaled) (a.scale - b.scale + shift)
        (scaled.tmod b.unscaled != 0) math

def divFloor (a b : Decimal) : Except ArithmeticFault Decimal :=
  if b.IsZero then .error .divisionByZero
  else
    let (m, n, _) := align a b
    .ok (ofInt (m.fdiv n))

def divTrunc (a b : Decimal) : Except ArithmeticFault Decimal :=
  if b.IsZero then .error .divisionByZero
  else
    let (m, n, _) := align a b
    .ok (ofInt (m.tdiv n))

def rem (a b : Decimal) : Except ArithmeticFault Decimal :=
  if b.IsZero then .error .modulusByZero
  else
    let (m, n, scale) := align a b
    .ok (normalize (m.tmod n) scale)

end TemplateExpr.Decimal
