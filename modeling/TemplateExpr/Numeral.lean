import TemplateExpr.Source
/-!
Numerals of the expression language:

  numeral  := sign? (0x hex-run | 0c oct-run | 0b bin-run | run (. run?)? exponent? | . run exponent?)
  exponent := (e | E) sign? run

The letters of the base marks may be capital. In a run of digits a single underscore may stand between two
digits. A numeral is read from where a source stands, as far as its characters can continue it.
-/
namespace TemplateExpr

structure Numeral where
  value : Decimal
  text : String
  /-- Written with decimal digits alone: without sign, base mark, point and exponent. -/
  plain : Bool
  deriving DecidableEq

namespace Numeral

def fail (fault : NumeralFault) : Scan α := fun s => .error (.badNumeral s.position fault) s

def unexpected : Scan α := fun s =>
  match s.current with
  | none => fail .unexpectedEnd s
  | some c => fail (.unexpectedChar c) s

def isSign (c : Char) : Bool := c == '+' || c == '-'

/-- One character of a run. A separator has to stand before a digit. -/
def runStep (base : Nat) : Scan (List Char) := fun s =>
  if s.current = some '_' && !s.next.any (Digits.isDigitOf base) then unexpected s
  else (return (← Source.read).toList : Scan (List Char)) s

def inRun (base : Nat) (s : Source) : Bool :=
  s.current.any fun c => Digits.isDigitOf base c || c == '_'

theorem consumes_runStep (base : Nat) : Scan.Consumes (inRun base) (runStep base) := by
  intro s a t hs h
  unfold runStep at h
  split at h
  · unfold unexpected at h
    split at h <;> cases h
  · obtain ⟨c, u, hread, hpure⟩ := bind_ok h
    cases hpure
    refine Scan.consumes_read s c t ?_ hread
    cases hc : s.current <;> simp_all [inRun]

def run (base : Nat) : Scan (List Char) :=
  Scan.repeatWhile (inRun base) (runStep base) (consumes_runStep base)

def withoutSeparators (cs : List Char) : List Char := cs.filter (· != '_')

def base? (mark : Char) : Option Nat :=
  match mark.toLower with
  | 'x' => some 16
  | 'c' => some 8
  | 'b' => some 2
  | _ => none

def announcedBase? (s : Source) : Option Nat :=
  if s.current = some '0' then s.next.bind base? else none

def marked (sign : List Char) (base : Nat) : Scan Numeral := do
  let zero ← Source.read
  let mark ← Source.read
  unless (← get).current.any (Digits.isDigitOf base) do
    fail (.missingDigits (mark.getD ' '))
  let digits ← run base
  let magnitude : Int := Digits.valueIn base (withoutSeparators digits)
  return {
    value := Decimal.ofInt (if sign = ['-'] then -magnitude else magnitude)
    text := String.ofList (sign ++ zero.toList ++ mark.toList ++ digits)
    plain := false }

def optionalRun : Scan (List Char) := do
  if (← get).current.any Char.isDigit then run 10 else return []

/-- The point and the digits after it. A point without digits before it needs digits after it. -/
def fraction (whole : List Char) : Scan (List Char) := do
  let s ← get
  if s.current = some '.' && (whole ≠ [] || s.next.any Char.isDigit) then
    let point ← Source.read
    if (← get).current = some '_' then unexpected
    return point.toList ++ (← optionalRun)
  else return []

def exponent : Scan (List Char × Int) := do
  let mark ← Scan.takeIf fun c => c == 'e' || c == 'E'
  if mark = [] then return ([], 0)
  let sign ← Scan.takeIf isSign
  unless (← get).current.any Char.isDigit do fail .missingExponent
  let digits ← run 10
  match Digits.signed? 64 (withoutSeparators digits) with
  | none => fail .exponentOutOfRange
  | some n => return (mark ++ sign ++ digits, if sign = ['-'] then -n else n)

def unmarked (sign : List Char) : Scan Numeral := do
  let whole ← optionalRun
  let fraction ← fraction whole
  let places := withoutSeparators (fraction.drop 1)
  if whole = [] && places = [] then unexpected
  let (written, power) ← exponent
  match Decimal.ofDigits? (sign = ['-']) (withoutSeparators whole) places power with
  | none => fail .exponentOutOfRange
  | some value =>
    return {
      value
      text := String.ofList (sign ++ whole ++ fraction ++ written)
      plain := sign = [] && fraction = [] && written = [] }

def scan : Scan Numeral := do
  let sign ← Scan.takeIf isSign
  match announcedBase? (← get) with
  | some base => marked sign base
  | none => unmarked sign

def scanAll : Scan Numeral := do
  let numeral ← scan
  unless (← get).atEnd do unexpected
  return numeral

def ofText (text : String) : Except Error Numeral := do
  let source ← Source.ofText text.utf8ByteSize text
  match scanAll source with
  | .ok numeral _ => return numeral
  | .error e _ => throw e

end Numeral

end TemplateExpr
