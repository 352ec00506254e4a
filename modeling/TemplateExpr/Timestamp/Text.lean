import TemplateExpr.Text.Blank
import TemplateExpr.Text.Digits
import TemplateExpr.Text.ScriptDigit
import TemplateExpr.Timestamp.Basic
/-!
The text of timestamps. Reading takes a year and as many of the lower fields as are written, down to nine
digits of a second; separators may be left out, and so may the zone. Writing gives all fields.

A text can have more than one reading, since `-05` after a year or a month is either a field or a zone.
The reading with more fields is the one that counts, even if it turns out to name no day. Digits of any
script are read as such, but only a text with digits of ASCII names a day.
-/
namespace TemplateExpr.Timestamp

structure WrittenZone where
  negative : Bool
  hours : List Char
  minutes : List Char
  deriving DecidableEq

/-- The parts of a written timestamp, before their ranges are looked at. -/
structure Written where
  negative : Bool
  year : List Char
  /-- Month, day, hour, minute and second, as far as they are given. -/
  fields : List (List Char)
  fraction : List Char
  zone : Option WrittenZone
  deriving DecidableEq

def separators : List (List Char) := [['-'], ['-'], ['T', ' '], [':'], [':']]

def twoDigits? : List Char → Option (List Char × List Char)
  | a :: b :: rest => if isScriptDigit a && isScriptDigit b then some ([a, b], rest) else none
  | _ => none

def dropSeparator (allowed : List Char) : List Char → List Char
  | c :: rest => if c ∈ allowed then rest else c :: rest
  | [] => []

def zone? : List Char → Option (Option WrittenZone)
  | [] => some none
  | ['Z'] | ['z'] => some none
  | sign :: rest =>
    if sign = '+' ∨ sign = '-' then
      match twoDigits? rest with
      | none => none
      | some (hours, []) => some (some ⟨sign = '-', hours, []⟩)
      | some (hours, more) =>
        match twoDigits? (dropSeparator [':'] more) with
        | some (minutes, []) => some (some ⟨sign = '-', hours, minutes⟩)
        | _ => none
    else none

def finish? (negative : Bool) (year fraction cs : List Char) : Option Written :=
  (zone? (cs.dropWhile (· == ' '))).map fun zone => ⟨negative, year, [], fraction, zone⟩

def fraction? (negative : Bool) (year cs : List Char) : Option Written :=
  match cs with
  | mark :: rest =>
    let digits := (rest.takeWhile isScriptDigit).take 9
    if (mark = '.' ∨ mark = ',') ∧ digits ≠ [] then
      finish? negative year digits (rest.drop digits.length)
    else finish? negative year [] cs
  | [] => finish? negative year [] cs

/-- The fields that may still follow, the longest reading first. -/
def fields? (negative : Bool) (year : List Char) : List (List Char) → List Char → Option Written
  | [], cs => fraction? negative year cs
  | allowed :: more, cs =>
    let longer := do
      let (field, rest) ← twoDigits? (dropSeparator allowed cs)
      let written ← fields? negative year more rest
      return { written with fields := field :: written.fields }
    longer <|> finish? negative year [] cs

def year? (negative : Bool) (cs : List Char) : Option Written :=
  let year := cs.take 4
  if year.length = 4 ∧ year.all isScriptDigit then
    fields? negative year separators (cs.drop 4)
  else none

def written? (cs : List Char) : Option Written :=
  match cs with
  | '-' :: rest => year? true rest
  | '+' :: rest => year? false rest
  | _ => year? false cs

/-- The minutes of a zone are the two bytes after its hours. Where these two end within a character, the
zone has whole hours. -/
def zoneMinutes? : List Char → Option Nat
  | [a, b] =>
    if a.utf8Size = 1 ∧ b.utf8Size = 1 ∨ a.utf8Size = 2 then Digits.run? [a, b] else some 0
  | _ => some 0

def WrittenZone.offset? (zone : WrittenZone) : Option Int := do
  let hours ← Digits.run? zone.hours
  let minutes ← zoneMinutes? zone.minutes
  let seconds : Int := hours * 3600 + minutes * 60
  return if zone.negative then -seconds else seconds

/-- The timestamp of fields that are all in range. Of a zone only the whole offset is limited. -/
def Written.resolve? (w : Written) : Option Timestamp := do
  let digits ← Digits.run? w.year
  let fields ← w.fields.mapM Digits.run?
  let nanos ← Digits.run? (w.fraction ++ List.replicate (9 - w.fraction.length) '0')
  let offset ← (w.zone.map WrittenZone.offset?).getD (some 0)
  let field := fun i least => fields.getD i least
  let year : Int := if w.negative then -digits else digits
  let day : CalendarDay := ⟨year, field 0 1, field 1 1⟩
  let hour := field 2 0
  let minute := field 3 0
  let second := field 4 0
  if day.Valid ∧ hour < 24 ∧ minute < 60 ∧ second < 60 ∧ offset.natAbs < 86400 then
    let seconds := day.toDays * secondsPerDay + hour * 3600 + minute * 60 + second - offset
    return ⟨seconds * nanosPerSecond + nanos, offset⟩
  else none

def ofText? (text : String) : Option Timestamp :=
  (written? (trimBlanks text.toList)).bind Written.resolve?

def padded (width n : Nat) : List Char :=
  let digits := Nat.toDigits 10 n
  List.replicate (width - digits.length) '0' ++ digits

/-- Four digits, and a sign outside of the years 0 to 9999. -/
def yearChars (year : Int) : List Char :=
  (if year < 0 then ['-'] else if 9999 < year then ['+'] else []) ++ padded 4 year.natAbs

def fractionChars (nanos : Nat) : List Char :=
  if nanos = 0 then []
  else '.' :: ((padded 9 nanos).reverse.dropWhile (· == '0')).reverse

/-- Hours and minutes, to the nearest minute. -/
def zoneChars (offset : Int) : List Char :=
  let minutes := (offset.natAbs + 30) / 60
  (if offset < 0 then '-' else '+') :: padded 2 (minutes / 60) ++ ':' :: padded 2 (minutes % 60)

/-- Date, time and zone. The fraction is left out when it is zero, and has no trailing zeros. A leap second has the
number of the second before it and one. -/
def toChars (t : Timestamp) : List Char :=
  let seconds := t.seconds + t.offset
  let day := CalendarDay.ofDays (seconds / secondsPerDay)
  let time := (seconds % secondsPerDay).toNat
  yearChars day.year ++ '-' :: padded 2 day.month ++ '-' :: padded 2 day.day ++
    'T' :: padded 2 (time / 3600) ++ ':' :: padded 2 (time / 60 % 60) ++
    ':' :: padded 2 (time % 60 + t.nanos / tenPow 9) ++ fractionChars (t.nanos % tenPow 9) ++
    zoneChars t.offset

def toText (t : Timestamp) : String := String.ofList t.toChars

end TemplateExpr.Timestamp
