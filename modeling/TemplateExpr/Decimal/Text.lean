import TemplateExpr.Text.Digits
import TemplateExpr.Decimal.Basic
/-!
The text of decimals. A number is written plainly, with all its zeros, unless that takes more than 65536
of them; then it is written with one digit before the point and an exponent. Reading accepts both.
-/
namespace TemplateExpr.Decimal

def plainZeros : Int := 65536

def padding (d : Decimal) : Int :=
  if d.scale ≤ 0 then -d.scale else d.scale - d.digits.length

def signedInt (n : Int) : List Char :=
  (if n < 0 then '-' else '+') :: Nat.toDigits 10 n.natAbs

def scientificChars (d : Decimal) : List Char :=
  let digits := d.digits
  let fraction := digits.drop 1
  digits.take 1 ++ (if fraction.isEmpty then [] else '.' :: fraction) ++
    'E' :: signedInt (d.integerDigits - 1)

def plainChars (d : Decimal) : List Char :=
  if d.scale ≤ 0 then
    if d.IsZero then d.digits else d.digits ++ List.replicate (-d.scale).toNat '0'
  else
    let places := d.scale.toNat
    let digits := d.digits
    if places < digits.length then
      digits.take (digits.length - places) ++ '.' :: digits.drop (digits.length - places)
    else '0' :: '.' :: List.replicate (places - digits.length) '0' ++ digits

def toChars (d : Decimal) : List Char :=
  (if d.IsNegative then ['-'] else []) ++
    if plainZeros < d.padding then d.scientificChars else d.plainChars

def toText (d : Decimal) : String := String.ofList d.toChars

/-- The number written with these digits before and after the point and this power of ten. The scale
that the digits and the exponent give has to be a 64-bit integer, and in range once normalized. -/
def ofDigits? (negative : Bool) (whole fraction : List Char) (exponent : Int) : Option Decimal :=
  let magnitude : Int := Digits.value (whole ++ fraction)
  let scale := fraction.length - exponent
  if FitsSigned 64 scale then
    (checked (if negative then -magnitude else magnitude) scale).toOption
  else none

def ofMantissa? (negative : Bool) (cs : List Char) (exponent : Int) : Option Decimal :=
  let whole := cs.takeWhile (· != '.')
  let fraction := (cs.dropWhile (· != '.')).drop 1
  if Digits.IsRun (whole ++ fraction) then ofDigits? negative whole fraction exponent else none

def ofSigned? (cs : List Char) (exponent : Int) : Option Decimal :=
  match cs with
  | '-' :: rest => ofMantissa? true rest exponent
  | '+' :: rest => ofMantissa? false rest exponent
  | _ => ofMantissa? false cs exponent

def isExponentMark (c : Char) : Bool := c == 'e' || c == 'E'

/-- The power of ten that a mark and an integer behind it give; nothing gives the power 0. -/
def power? : List Char → Option Int
  | [] => some 0
  | _ :: written => Digits.signed? 64 written

def ofChars? (cs : List Char) : Option Decimal :=
  (power? (cs.dropWhile (! isExponentMark ·))).bind
    (ofSigned? (cs.takeWhile (! isExponentMark ·)))

def ofText? (text : String) : Option Decimal := ofChars? text.toList

end TemplateExpr.Decimal
