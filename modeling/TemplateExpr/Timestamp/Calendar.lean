/-!
Days of the Gregorian calendar, extended to all years, counted from 1970-01-01. Years are taken to begin in
March, so that a leap day is the last of its year.
-/
namespace TemplateExpr

structure CalendarDay where
  year : Int
  month : Nat
  day : Nat
  deriving DecidableEq

namespace CalendarDay

def isLeap (year : Int) : Bool :=
  year % 4 == 0 && (year % 100 != 0 || year % 400 == 0)

def daysInMonth (year : Int) (month : Nat) : Nat :=
  match month with
  | 4 | 6 | 9 | 11 => 30
  | 2 => if isLeap year then 29 else 28
  | _ => 31

def Valid (d : CalendarDay) : Prop :=
  1 ≤ d.month ∧ d.month ≤ 12 ∧ 1 ≤ d.day ∧ d.day ≤ daysInMonth d.year d.month

instance (d : CalendarDay) : Decidable d.Valid := inferInstanceAs (Decidable (_ ∧ _))

/-- Days from the first of March of year 0 to that of `year`. -/
def yearStart (year : Int) : Int := 365 * year + year / 4 - year / 100 + year / 400

/-- Days from the first of March to the first of a month, March being month 0. -/
def monthStart (month : Int) : Int := (153 * month + 2) / 5

def epochOffset : Int := 719468

def toDays (d : CalendarDay) : Int :=
  let early := d.month ≤ 2
  let year := if early then d.year - 1 else d.year
  let month : Int := if early then d.month + 9 else d.month - 3
  yearStart year + monthStart month + d.day - 1 - epochOffset

/-- The year in March reckoning that a day belongs to. The mean length of a year gives it to within one
year. -/
def yearOf (days : Int) : Int :=
  let guess := days * 400 / 146097
  if days < yearStart guess then guess - 1
  else if yearStart (guess + 1) ≤ days then guess + 1
  else guess

def ofDays (days : Int) : CalendarDay :=
  let days := days + epochOffset
  let year := yearOf days
  let rest := days - yearStart year
  let month := (5 * rest + 2) / 153
  let day := rest - monthStart month + 1
  if month < 10 then ⟨year, (month + 3).toNat, day.toNat⟩
  else ⟨year + 1, (month - 9).toNat, day.toNat⟩

end CalendarDay

end TemplateExpr
