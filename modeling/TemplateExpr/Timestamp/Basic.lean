import TemplateExpr.Timestamp.Calendar
import TemplateExpr.Decimal.Quotient
/-!
Timestamps: an instant to the nanosecond and how clocks tell it, with the zone offset and within a leap second or not.
They are ordered by seconds and then by nanoseconds; the offset has no part in that. Seconds since 1970 are the numeric
form, in which a leap second coincides with the second after it.
-/
namespace TemplateExpr

/-- How clocks tell an instant. -/
structure Dial where
  /-- Seconds that the local time is ahead of UTC. -/
  offset : Int
  /-- The second before goes on for one more. No text and no number is read as such an instant. -/
  leap : Bool := false
  deriving DecidableEq

instance : Coe Int Dial := ⟨fun offset => { offset }⟩

instance (offset : Nat) : OfNat Dial offset := ⟨(offset : Int)⟩

structure Timestamp where
  /-- Nanoseconds since the start of 1970 in UTC, leap seconds not counted. -/
  instant : Int
  dial : Dial
  deriving DecidableEq

namespace Timestamp

abbrev offset (t : Timestamp) : Int := t.dial.offset

abbrev leap (t : Timestamp) : Bool := t.dial.leap

def epoch : Timestamp := ⟨0, 0⟩

def nanosPerSecond : Int := 1000000000

/-- Whole seconds since the start of 1970. In a leap second they stand still. -/
def seconds (t : Timestamp) : Int := t.instant / nanosPerSecond - if t.leap then 1 else 0

/-- Nanoseconds behind the whole seconds, for a leap second those of two seconds. -/
def nanos (t : Timestamp) : Nat := (t.instant - t.seconds * nanosPerSecond).toNat

def compare (a b : Timestamp) : Ordering :=
  (Ord.compare a.seconds b.seconds).then (Ord.compare a.nanos b.nanos)

def secondsPerDay : Int := 86400

/-- The instants that a number may name, by the year they fall in. -/
def leastYear : Int := -262143

def greatestYear : Int := 262142

def toSeconds (t : Timestamp) : Decimal := Decimal.normalize t.instant 9

/-- The instant so many seconds after the start of 1970, in UTC. Digits below nanoseconds are cut
downwards, and nanoseconds are counted from the whole second below. -/
def ofSeconds? (seconds : Decimal) : Option Timestamp :=
  if 19 < seconds.integerDigits then none
  else
    match seconds.roundToScale 9 .floor with
    | .error _ => none
    | .ok cut =>
      let whole := cut.floor
      let fraction := cut.sub (Decimal.ofInt whole)
      let nanos := (fraction.mul (Decimal.ofInt nanosPerSecond)).trunc
      let year := (CalendarDay.ofDays (whole / secondsPerDay)).year
      if 0 ≤ nanos ∧ nanos < nanosPerSecond ∧ FitsSigned 64 whole ∧ leastYear ≤ year ∧ year ≤ greatestYear then
        some ⟨whole * nanosPerSecond + nanos, 0⟩
      else none

end Timestamp

end TemplateExpr
