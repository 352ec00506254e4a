import TemplateExpr.Numeral
import TemplateExpr.Proofs.Decimal.NormalForm
/-!
The grammar of numerals, as trees that hold their own derivations, with the text and the number of each tree.
Nothing here refers to a scanner.
-/
namespace TemplateExpr.Numeral

/-- Digits of a base. A single underscore may stand between two of them. -/
inductive Run (base : Nat) : List Char → Prop where
  | last {d : Char} (digit : Digits.isDigitOf base d = true) : Run base [d]
  | next {d : Char} {cs : List Char} (digit : Digits.isDigitOf base d = true) (rest : Run base cs) :
      Run base (d :: cs)
  | separated {d : Char} {cs : List Char} (digit : Digits.isDigitOf base d = true)
      (rest : Run base cs) : Run base (d :: '_' :: cs)

/-- The number that a run spells, digit by digit. -/
def spelled (base : Nat) (cs : List Char) : Nat :=
  (withoutSeparators cs).foldl (Digits.push base) 0

inductive Marks : Char → Nat → Prop where
  | smallX : Marks 'x' 16
  | capitalX : Marks 'X' 16
  | smallC : Marks 'c' 8
  | capitalC : Marks 'C' 8
  | smallB : Marks 'b' 2
  | capitalB : Marks 'B' 2

inductive Sign where
  | none
  | plus
  | minus
  deriving DecidableEq

namespace Sign

def chars : Sign → List Char
  | none => []
  | plus => ['+']
  | minus => ['-']

def apply (sign : Sign) (n : Int) : Int := if sign = minus then -n else n

end Sign

inductive Mantissa where
  | whole (digits : List Char) (run : Run 10 digits)
  | point (digits places : List Char) (run : Run 10 digits) (tail : places = [] ∨ Run 10 places)
  | bare (places : List Char) (run : Run 10 places)

namespace Mantissa

def digits : Mantissa → List Char
  | whole digits _ => digits
  | point digits _ _ _ => digits
  | bare _ _ => []

def places : Mantissa → List Char
  | whole _ _ => []
  | point _ places _ _ => places
  | bare places _ => places

def fraction : Mantissa → List Char
  | whole _ _ => []
  | point _ places _ _ => '.' :: places
  | bare places _ => '.' :: places

def chars (m : Mantissa) : List Char := m.digits ++ m.fraction

def size (m : Mantissa) : Nat := (withoutSeparators m.places).length

def toRat (m : Mantissa) : ℚ := spelled 10 m.digits + spelled 10 m.places / 10 ^ m.size

end Mantissa

structure Exponent where
  mark : Char
  sign : Sign
  digits : List Char
  isMark : mark = 'e' ∨ mark = 'E'
  run : Run 10 digits

namespace Exponent

def chars (e : Exponent) : List Char := e.mark :: e.sign.chars ++ e.digits

def power (e : Exponent) : Int := e.sign.apply (spelled 10 e.digits)

end Exponent

inductive Body where
  | marked (mark : Char) (base : Nat) (digits : List Char) (marks : Marks mark base)
      (run : Run base digits)
  | decimal (mantissa : Mantissa) (exponent : Option Exponent)

structure Literal where
  sign : Sign
  body : Body

def exponentChars : Option Exponent → List Char
  | none => []
  | some e => e.chars

def exponentPower : Option Exponent → Int
  | none => 0
  | some e => e.power

namespace Body

def chars : Body → List Char
  | marked mark _ digits _ _ => '0' :: mark :: digits
  | decimal mantissa exponent => mantissa.chars ++ exponentChars exponent

def toRat : Body → ℚ
  | marked _ base digits _ _ => spelled base digits
  | decimal mantissa exponent => mantissa.toRat * 10 ^ exponentPower exponent

end Body

namespace Literal

def chars (l : Literal) : List Char := l.sign.chars ++ l.body.chars

def toRat (l : Literal) : ℚ := if l.sign = .minus then -l.body.toRat else l.body.toRat

/-- Without sign, mark, point and exponent. -/
def IsPlain (l : Literal) : Prop :=
  l.sign = .none ∧ ∃ digits run, l.body = .decimal (.whole digits run) none

/-- The digits of a decimal literal, the point left out, with the sign of the literal. -/
def unscaled (sign : Sign) (mantissa : Mantissa) : Int :=
  sign.apply (spelled 10 (mantissa.digits ++ mantissa.places))

/-- What a decimal literal has to respect: the digits of the exponent fit into 64 bits, so does the scale, and
the scale that is left without trailing zeros is one of a decimal. -/
def InRange (l : Literal) : Prop :=
  match l.body with
  | .marked .. => True
  | .decimal mantissa exponent =>
    (∀ e ∈ exponent, FitsSigned 64 (spelled 10 e.digits)) ∧
      FitsSigned 64 (mantissa.size - exponentPower exponent) ∧
      ∃ d, Decimal.checked (unscaled l.sign mantissa)
        (mantissa.size - exponentPower exponent) = .ok d

end Literal

end TemplateExpr.Numeral
