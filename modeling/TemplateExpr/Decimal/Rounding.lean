import TemplateExpr.Decimal.Basic
import TemplateExpr.Text.Blank
/-!
Rounding of decimals, to a number of significant digits or to a number of places. Eight modes say when
the last kept digit moves away from zero; all callers share the step that drops digits.
-/
namespace TemplateExpr

inductive RoundingMode where
  | up
  | down
  | ceiling
  | floor
  | halfUp
  | halfDown
  | halfEven
  | unnecessary
  deriving DecidableEq

/-- How many significant digits a result keeps, and how it is rounded to them. No limit is written 0. -/
structure MathSettings where
  precision : Nat := 34
  rounding : RoundingMode := .halfEven
  deriving DecidableEq

namespace RoundingMode

def name : RoundingMode → String
  | up => "UP"
  | down => "DOWN"
  | ceiling => "CEILING"
  | floor => "FLOOR"
  | halfUp => "HALF_UP"
  | halfDown => "HALF_DOWN"
  | halfEven => "HALF_EVEN"
  | unnecessary => "UNNECESSARY"

def all : List RoundingMode :=
  [up, down, ceiling, floor, halfUp, halfDown, halfEven, unnecessary]

/-- The mode of a name. Small letters are as good as capitals, and a hyphen or a space as an
underscore. -/
def ofText? (text : String) : Option RoundingMode :=
  let key := (trimBlanks text.toList).map fun c => if c == '-' || c == ' ' then '_' else c.toUpper
  all.find? fun mode => mode.name.toList == key

/-- Whether an inexact result moves away from zero. `half` compares what was dropped with half a unit
of the last kept digit, and `odd` speaks of that digit. `unnecessary` allows no inexact result. -/
def bumps? (mode : RoundingMode) (negative odd : Bool) (half : Ordering) : Option Bool :=
  match mode with
  | up => some true
  | down => some false
  | ceiling => some !negative
  | floor => some negative
  | halfUp => some (half != .lt)
  | halfDown => some (half == .gt)
  | halfEven => some (half == .gt || half == .eq && odd)
  | unnecessary => none

end RoundingMode

namespace Decimal

/-- `unscaled * 10 ^ (-scale)` without its last `drop` digits. `sticky` says that a non-zero part below
the last digit of `unscaled` is already gone. -/
def roundDropping (unscaled scale : Int) (drop : Nat) (sticky : Bool) (mode : RoundingMode) :
    Except ArithmeticFault Decimal :=
  let beyond := digitCount unscaled < drop
  let kept := if beyond then 0 else unscaled.tdiv (tenPow drop)
  let rest := if beyond then unscaled else unscaled.tmod (tenPow drop)
  let half :=
    if beyond then .lt
    else (Ord.compare (rest.natAbs * 2) (tenPow drop)).then (if sticky then .gt else .eq)
  if !sticky && rest == 0 then checked kept (scale - drop)
  else
    match mode.bumps? (unscaled < 0) (kept % 2 != 0) half with
    | none => .error .roundingNecessary
    | some false => checked kept (scale - drop)
    | some true => checked (if unscaled < 0 then kept - 1 else kept + 1) (scale - drop)

def roundSignificant (unscaled scale : Int) (sticky : Bool) (math : MathSettings) :
    Except ArithmeticFault Decimal :=
  let drop := digitCount unscaled - math.precision
  if math.precision = 0 ∨ drop = 0 ∧ sticky = false then checked unscaled scale
  else roundDropping unscaled scale drop sticky math.rounding

def round (d : Decimal) (math : MathSettings) : Except ArithmeticFault Decimal :=
  roundSignificant d.unscaled d.scale false math

/-- The number to `places` digits after the point; `places` is cut to the range of scales. -/
def roundToScale (d : Decimal) (places : Int) (mode : RoundingMode) :
    Except ArithmeticFault Decimal :=
  let places := max minScale (min places maxScale)
  if d.scale ≤ places then .ok d
  else roundDropping d.unscaled d.scale (d.scale - places).toNat false mode

end Decimal

end TemplateExpr
