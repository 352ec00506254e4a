import TemplateExpr.Decimal.Text
import TemplateExpr.Text.Blank
import TemplateExpr.Text.Search
/-!
Time limits: a number of seconds, or of milliseconds if the unit `ms` follows, as whole nanoseconds.
-/
namespace TemplateExpr.Duration

inductive Fault where
  | notDuration (text : String)
  | negative (text : String)
  | tooLong (text : String)
  deriving DecidableEq

def Fault.message : Fault → String
  | notDuration text => s!"timeout: '{text}' is not a duration"
  | negative text => s!"timeout: '{text}' is negative"
  | tooLong text => s!"timeout: '{text}' is too long"

def splitUnit (cs : List Char) : List Char × Decimal :=
  match dropTrail? ['m', 's'] cs with
  | some number => (number, ⟨1, 3⟩)
  | none => ((dropTrail? ['s'] cs).getD cs, .one)

def giga : Decimal := .ofInt 1000000000

/-- Nanoseconds are counted in 64 bits. A number of more than twenty digits is beyond that. -/
def nanoseconds? (amount : Decimal) : Option Nat :=
  if 20 < amount.integerDigits then none
  else if amount.trunc.toNat < twoPow 64 then some amount.trunc.toNat else none

/-- Nanoseconds, cut downwards. The scales of the products may be out of range. -/
def ofText? (text : String) : Except Fault Nat :=
  let trimmed := trimBlanks text.toList
  let (number, unit) := splitUnit trimmed
  match Decimal.ofChars? (trimBlanks number) with
  | none => .error (.notDuration (String.ofList trimmed))
  | some amount =>
    if amount.IsNegative then .error (.negative (String.ofList trimmed))
    else
      match nanoseconds? ((amount.mul unit).mul giga) with
      | none => .error (.tooLong (String.ofList trimmed))
      | some count => .ok count

end TemplateExpr.Duration
