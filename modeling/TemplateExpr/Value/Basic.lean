import TemplateExpr.Numeral
import TemplateExpr.Timestamp.Text
/-!
Values of the expression language. A value has one of four kinds and can be asked for its form in each of
them. The text form always exists; the others may fail.
-/
namespace TemplateExpr

inductive Value where
  | text (text : String)
  | number (n : Decimal)
  | logic (b : Bool)
  | date (t : Timestamp)
  deriving DecidableEq

namespace Value

def ofInt (n : Int) : Value := number (Decimal.ofInt n)

def kind : Value → Kind
  | text _ => .text
  | number _ => .number
  | logic _ => .logic
  | date _ => .date

def asText : Value → String
  | text s => s
  | number n => n.toText
  | logic b => if b then "true" else "false"
  | date t => t.toText

/-- Text is a numeral in any of the bases, white space around it aside; a date is its seconds since
1970. -/
def asNumber : Value → Except Error Decimal
  | text s =>
    match Numeral.ofText (trimText s) with
    | .ok numeral => .ok numeral.value
    | .error _ => .error (.conversion .text .number s)
  | number n => .ok n
  | logic b => .ok (if b then .one else .zero)
  | date t => .ok t.toSeconds

/-- What is above zero, or after the start of 1970, is true. -/
def asLogic : Value → Except Error Bool
  | text s =>
    let word := String.ofList (s.toList.map Char.toLower)
    if word = "true" ∨ word = "1" then .ok true
    else if word = "false" ∨ word = "0" ∨ word = "" then .ok false
    else .error (.conversion .text .logic s)
  | number n => .ok (decide n.IsPositive)
  | logic b => .ok b
  | date t => .ok (t.compare .epoch == .gt)

def asDate : Value → Except Error Timestamp
  | text s =>
    match Timestamp.ofText? s with
    | some t => .ok t
    | none => .error (.conversion .text .date s)
  | number n =>
    match Timestamp.ofSeconds? n with
    | some t => .ok t
    | none => .error (.conversion .number .date n.toText)
  | logic b => .ok (if b then ⟨Timestamp.nanosPerSecond, 0⟩ else .epoch)
  | date t => .ok t

def convert (v : Value) (kind : Kind) : Except Error Value :=
  if v.kind = kind then .ok v
  else
    match kind with
    | .text => .ok (text v.asText)
    | .number => v.asNumber.map number
    | .logic => v.asLogic.map logic
    | .date => v.asDate.map date

/-- The order of the language. Equal kinds compare by their own order; otherwise a text makes both texts,
and all else compares as numbers. -/
def compare (a b : Value) : Ordering :=
  match a, b with
  | text x, text y => Ord.compare x y
  | number x, number y => x.compare y
  | logic x, logic y => Ord.compare x y
  | date x, date y => x.compare y
  | text x, other => Ord.compare x other.asText
  | other, text y => Ord.compare other.asText y
  | x, y =>
    match x.asNumber, y.asNumber with
    | .ok m, .ok n => m.compare n
    | _, _ => .eq

def equals (a b : Value) : Bool := a.compare b == .eq

end Value

end TemplateExpr
