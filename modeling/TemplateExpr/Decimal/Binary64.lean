import TemplateExpr.Decimal.Basic
/-!
Decimals and 64-bit binary floating-point numbers. A decimal goes to the nearest float, ties to the even
one; a float comes back as the shortest decimal that the same rule reads as that float.
Both ways are exact integer arithmetic on the bits of the float.
-/
namespace TemplateExpr.Binary64

def significandBits : Nat := 52

def minExponent : Int := -1074

def infinity : Nat := 2047 * twoPow 52

def signBit : Nat := twoPow 63

def logTwo (num den : Nat) : Int :=
  let guess : Int := num.log2 - den.log2
  if den * twoPow guess.toNat ≤ num * twoPow (-guess).toNat then guess else guess - 1

/-- The magnitude bits of the float nearest to `num / den`. The significand is counted with its leading
bit, so that a carry out of it raises the exponent. -/
def nearest (num den : Nat) : Nat :=
  if num = 0 then 0
  else
    let exponent := max minExponent (logTwo num den - significandBits)
    let n := num * twoPow (-exponent).toNat
    let d := den * twoPow exponent.toNat
    let quotient := n / d
    let rounded :=
      match compare (2 * (n % d)) d with
      | .lt => quotient
      | .eq => quotient + quotient % 2
      | .gt => quotient + 1
    min infinity (rounded + (exponent - minExponent).toNat * twoPow significandBits)

/-- The magnitude bits of the float nearest to `m * 10 ^ exponent`. Beyond 400 digits on either side of
the point only the sign of the exponent matters. -/
def nearestScaled (m : Nat) (exponent : Int) : Nat :=
  let size := (Digits.ofNat m).length + exponent
  if m = 0 ∨ size < -400 then 0
  else if 400 < size then infinity
  else nearest (m * tenPow exponent.toNat) (tenPow (-exponent).toNat)

def ofDecimal (d : Decimal) : Float :=
  let magnitude := nearestScaled d.unscaled.natAbs (-d.scale)
  Float.ofBits (UInt64.ofNat (if d.unscaled < 0 then signBit + magnitude else magnitude))

structure Unpacked where
  significand : Nat
  exponent : Int

def unpack (magnitude : Nat) : Unpacked :=
  let field := magnitude / twoPow significandBits
  let fraction := magnitude % twoPow significandBits
  if field = 0 then ⟨fraction, minExponent⟩
  else ⟨twoPow significandBits + fraction, minExponent + field - 1⟩

structure Neighbourhood where
  value : Nat
  low : Nat
  high : Nat
  denominator : Nat
  closed : Bool

/-- The interval reaches half a unit to each side, a quarter below a power of two. Its ends belong to it
when the significand is even. -/
def Unpacked.neighbourhood (u : Unpacked) : Neighbourhood :=
  let scale := twoPow u.exponent.toNat
  let below := if u.significand = twoPow significandBits ∧ minExponent < u.exponent then 1 else 2
  { value := 4 * u.significand * scale
    low := (4 * u.significand - below) * scale
    high := (4 * u.significand + 2) * scale
    denominator := 4 * twoPow (-u.exponent).toNat
    closed := u.significand % 2 = 0 }

def Neighbourhood.contains (n : Neighbourhood) (m : Nat) (exponent : Int) : Bool :=
  let point := m * tenPow exponent.toNat * n.denominator
  let unit := tenPow (-exponent).toNat
  if n.closed then n.low * unit ≤ point && point ≤ n.high * unit
  else n.low * unit < point && point < n.high * unit

def logTen (num den : Nat) : Int :=
  if den ≤ num then (Nat.toDigits 10 (num / den)).length - 1
  else
    let guess : Int := -(Nat.toDigits 10 (den / num)).length
    if den ≤ num * tenPow (-guess - 1).toNat then guess + 1 else guess

def Neighbourhood.onGrid? (n : Neighbourhood) (exponent : Int) : Option Nat :=
  let num := n.value * tenPow (-exponent).toNat
  let den := n.denominator * tenPow exponent.toNat
  let lower := num / den
  match n.contains lower exponent, n.contains (lower + 1) exponent with
  | true, true => some (if 2 * (num % den) < den then lower else lower + 1)
  | true, false => some lower
  | false, true => some (lower + 1)
  | false, false => none

/-- The shortest decimal `m * 10 ^ e` that reads back as the float. Seventeen digits always do. -/
def Unpacked.shortest (u : Unpacked) : Nat × Int :=
  let n := u.neighbourhood
  let top := logTen n.value n.denominator
  let grids := (List.range 17).map fun (digits : Nat) => top - digits
  (grids.findSome? fun e => (n.onGrid? e).map (·, e)).getD (0, 0)

def toDecimal? (x : Float) : Option Decimal :=
  let bits := x.toBits.toNat
  let magnitude := bits % signBit
  if infinity ≤ magnitude then none
  else if magnitude = 0 then some .zero
  else
    let (m, exponent) := (unpack magnitude).shortest
    some (Decimal.normalize (if signBit ≤ bits then -m else m) (-exponent))

end TemplateExpr.Binary64
