import TemplateExpr.Decimal.Quotient
import TemplateExpr.Decimal.Binary64
/-!
Powers and square roots of decimals. Integer powers are products of decimals; a fractional exponent and
a square root are computed in binary floating point and read back from the result.
-/
namespace TemplateExpr.Decimal

def maxExponent : Nat := 999999999

def powRounded (math : MathSettings) (result base : Decimal) (n : Nat) :
    Except ArithmeticFault Decimal := do
  if n = 0 then return result
  let result ← if n % 2 = 1 then (← checkedMul result base).round math else pure result
  if n / 2 = 0 then return result
  powRounded math result (← (← checkedMul base base).round math) (n / 2)
termination_by n

/-- The settings for the products of a power: a few digits more than the power itself keeps, counted in 32 bits that
wrap, and no demand that products are exact. -/
def guardSettings (math : MathSettings) (n : Nat) : MathSettings where
  precision := (math.precision + (Nat.toDigits 10 n).length + 1) % twoPow 32
  rounding := if math.rounding = .unnecessary then .halfEven else math.rounding

/-- A power with a positive exponent: exact without a limit on digits. There, a scale beyond 64 bits counts
as a fault of the power, and the exponent is a signed number of 64 bits for the scale and one of 32 bits for the digits. -/
def powNatural (b : Decimal) (n : Nat) (math : MathSettings) : Except ArithmeticFault Decimal :=
  if math.precision = 0 then
    let scale := b.scale * wrapSigned 64 n
    if ¬FitsSigned 64 scale then .error .invalidPower
    else if minScale ≤ scale ∧ scale ≤ maxScale then checked (b.unscaled.pow (n % twoPow 32)) scale
    else .error .scaleOutOfRange
  else do (← powRounded (guardSettings math n) one b n).round math

/-- The magnitude of an exponent is taken in 64 bits, where that of the least number is the number itself. -/
def pow (b exponent : Decimal) (math : MathSettings) : Except ArithmeticFault Decimal :=
  if exponent.IsInteger then
    match exponent.toInt64?.filter fun n => wrapSigned 64 n.natAbs ≤ maxExponent with
    | none => .error .invalidPower
    | some n =>
      if n = 0 then .ok one
      else do
        let magnitude ← powNatural b n.natAbs math
        if 0 < n then return magnitude else div one magnitude math
  else
    match Binary64.toDecimal? (Float.pow (Binary64.ofDecimal b) (Binary64.ofDecimal exponent)) with
    | none => .error .invalidPower
    | some power => power.round math

def sqrt (d : Decimal) : Except ArithmeticFault Decimal :=
  if d.IsNegative then .error (.negativeRoot d)
  else
    match Binary64.toDecimal? (Float.sqrt (Binary64.ofDecimal d)) with
    | none => .error (.rootOutOfRange d)
    | some root => .ok root

end TemplateExpr.Decimal
