import TemplateExpr.Proofs.Timestamp.Calendar
import TemplateExpr.Proofs.Timestamp.Order
import TemplateExpr.Proofs.Timestamp.Spelling
/-!
What a timestamp shows on a clock in its zone, and what written fields say. Fields that are in range, in a zone of less
than a day, give the one timestamp that shows them there.
-/
namespace TemplateExpr.Timestamp

def localSeconds (t : Timestamp) : Int := t.seconds + t.offset

def localDay (t : Timestamp) : CalendarDay := CalendarDay.ofDays (t.localSeconds / secondsPerDay)

/-- Seconds since midnight. -/
def clock (t : Timestamp) : Nat := (t.localSeconds % secondsPerDay).toNat

theorem clock_lt (t : Timestamp) : t.clock < 86400 := by
  unfold clock secondsPerDay
  omega

theorem localDay_valid (t : Timestamp) : t.localDay.Valid := CalendarDay.valid_ofDays _

/-! ### What fields say -/

namespace Written

/-- The number in a field, or the least one if the field is not given. -/
def field (w : Written) (i least : Nat) : Nat := (w.fields.map Digits.value).getD i least

def date (w : Written) : CalendarDay :=
  ⟨if w.negative then -(Digits.value w.year : Int) else Digits.value w.year, w.field 0 1, w.field 1 1⟩

def clock (w : Written) : Nat := w.field 2 0 * 3600 + w.field 3 0 * 60 + w.field 4 0

def nanos (w : Written) : Nat := Digits.value (w.fraction ++ List.replicate (9 - w.fraction.length) '0')

structure InRange (w : Written) : Prop where
  year : Digits.IsRun w.year
  fields : ∀ cs ∈ w.fields, Digits.IsRun cs
  fraction : ∀ c ∈ w.fraction, c.isDigit = true
  date : w.date.Valid
  hour : w.field 2 0 ≤ 23
  minute : w.field 3 0 ≤ 59
  second : w.field 4 0 ≤ 59

def Shows (w : Written) (t : Timestamp) : Prop := t.localDay = w.date ∧ t.clock = w.clock ∧ t.nanos = w.nanos

end Written

/-- A timestamp is known by what it shows. -/
theorem eq_iff_shown {day : CalendarDay} (valid : day.Valid) {clock nanos : Nat} (time : clock < 86400)
    (part : nanos < tenPow 9) {offset : Int} {t : Timestamp} :
    ⟨(day.toDays * secondsPerDay + clock - offset) * nanosPerSecond + nanos, offset⟩ = t ↔
      t.localDay = day ∧ t.clock = clock ∧ t.nanos = nanos ∧ t.offset = offset := by
  constructor
  · rintro rfl
    obtain ⟨whole, rest⟩ := @told_of_parts (day.toDays * secondsPerDay + clock - offset) nanos part offset
    have shown : localSeconds ⟨(day.toDays * secondsPerDay + clock - offset) * nanosPerSecond + nanos, offset⟩ =
        day.toDays * secondsPerDay + clock := by
      rw [localSeconds, whole]
      exact Int.sub_add_cancel _ _
    refine ⟨?_, ?_, rest, rfl⟩
    · have days : (day.toDays * secondsPerDay + clock) / secondsPerDay = day.toDays := by
        unfold secondsPerDay
        omega
      rw [localDay, shown, days, CalendarDay.ofDays_toDays valid]
    · rw [Timestamp.clock, shown]
      unfold secondsPerDay
      omega
  · rintro ⟨rfl, rfl, rfl, rfl⟩
    have days : t.localDay.toDays = t.localSeconds / secondsPerDay := CalendarDay.toDays_ofDays _
    have whole : t.localDay.toDays * secondsPerDay + t.clock - t.offset = t.seconds := by
      rw [days]
      unfold Timestamp.clock localSeconds secondsPerDay
      omega
    rw [whole, ← instant_eq, eq_of_plain (t.nanos_lt_iff.mp part)]

theorem mapM_run?_eq_some_iff {fields : List (List Char)} {numbers : List Nat} :
    fields.mapM Digits.run? = some numbers ↔
      (∀ cs ∈ fields, Digits.IsRun cs) ∧ fields.map Digits.value = numbers := by
  induction fields generalizing numbers with
  | nil => simp
  | cons cs fields ih =>
    rw [List.mapM_cons, List.forall_mem_cons, List.map_cons]
    simp only [Option.bind_eq_bind, Option.bind_eq_some_iff, Digits.run?_eq_some_iff, ih, Option.pure_def, Option.some_inj]
    constructor
    · rintro ⟨_, ⟨run, rfl⟩, _, ⟨runs, rfl⟩, rfl⟩
      exact ⟨⟨run, runs⟩, rfl⟩
    · rintro ⟨⟨run, runs⟩, rfl⟩
      exact ⟨_, ⟨run, rfl⟩, _, ⟨runs, rfl⟩, rfl⟩

theorem isRun_filled_iff (fraction : List Char) :
    Digits.IsRun (fraction ++ List.replicate (9 - fraction.length) '0') ↔ ∀ c ∈ fraction, c.isDigit = true := by
  constructor
  · rintro ⟨_, digits⟩ c mem
    exact digits c (List.mem_append_left _ mem)
  · intro digits
    refine ⟨fun none => ?_, fun c mem => ?_⟩
    · obtain ⟨rfl, filled⟩ := List.append_eq_nil_iff.mp none
      cases filled
    · rcases List.mem_append.mp mem with given | zero
      · exact digits c given
      · rw [(List.mem_replicate.mp zero).2]
        rfl

namespace Written

def offset? (w : Written) : Option Int := (w.zone.map WrittenZone.offset?).getD (some 0)

variable {w : Written} {t : Timestamp}

theorem InRange.clock_lt (range : w.InRange) : w.clock < 86400 := by
  have hour := range.hour
  have minute := range.minute
  have second := range.second
  unfold clock
  omega

theorem InRange.nanos_lt (range : w.InRange) (few : w.fraction.length ≤ 9) : w.nanos < tenPow 9 := by
  have bound := Digits.value_lt ((isRun_filled_iff w.fraction).mpr range.fraction).2
  rwa [List.length_append, List.length_replicate, Nat.add_sub_of_le few] at bound

theorem digits_of_resolve? (read : w.resolve? = some t) :
    Digits.IsRun w.year ∧ (∀ cs ∈ w.fields, Digits.IsRun cs) ∧ ∀ c ∈ w.fraction, c.isDigit = true := by
  unfold resolve? at read
  obtain ⟨_, year, read⟩ := Option.bind_eq_some_iff.mp read
  obtain ⟨_, fields, read⟩ := Option.bind_eq_some_iff.mp read
  obtain ⟨_, fraction, _⟩ := Option.bind_eq_some_iff.mp read
  exact ⟨(Digits.run?_eq_some_iff.mp year).1, (mapM_run?_eq_some_iff.mp fields).1,
    (isRun_filled_iff _).mp (Digits.run?_eq_some_iff.mp fraction).1⟩

theorem resolve?_of_digits (year : Digits.IsRun w.year) (fields : ∀ cs ∈ w.fields, Digits.IsRun cs)
    (fraction : ∀ c ∈ w.fraction, c.isDigit = true) :
    w.resolve? = w.offset?.bind fun offset =>
      if w.date.Valid ∧ w.field 2 0 < 24 ∧ w.field 3 0 < 60 ∧ w.field 4 0 < 60 ∧ offset.natAbs < 86400 then
        some ⟨(w.date.toDays * secondsPerDay + w.clock - offset) * nanosPerSecond + w.nanos, offset⟩
      else none := by
  have digits := Digits.run?_eq_some_iff.mpr ⟨year, rfl⟩
  have numbers := mapM_run?_eq_some_iff.mpr ⟨fields, rfl⟩
  have part := Digits.run?_eq_some_iff.mpr ⟨(isRun_filled_iff w.fraction).mpr fraction, rfl⟩
  unfold resolve?
  rw [digits, numbers, part]
  simp only [Option.bind_eq_bind, Option.bind_some, Option.pure_def]
  refine Option.bind_congr fun offset _ => ?_
  refine if_congr Iff.rfl ?_ rfl
  have time : (w.clock : Int) = w.field 2 0 * 3600 + w.field 3 0 * 60 + w.field 4 0 := by
    unfold clock
    push_cast
    rfl
  rw [time, ← Int.add_assoc, ← Int.add_assoc]
  rfl

/-- Fields give a timestamp exactly if they are in range and their zone is less than a day; they give the one that shows
them in their zone. -/
theorem resolve?_eq_some_iff (few : w.fraction.length ≤ 9) :
    w.resolve? = some t ↔ w.InRange ∧ w.offset? = some t.offset ∧ t.offset.natAbs < 86400 ∧ w.Shows t := by
  have shown (range : w.InRange) (offset : Int) := @eq_iff_shown w.date range.date w.clock w.nanos range.clock_lt
    (range.nanos_lt few) offset t
  constructor
  · intro read
    obtain ⟨year, fields, fraction⟩ := digits_of_resolve? read
    rw [resolve?_of_digits year fields fraction] at read
    obtain ⟨offset, zone, read⟩ := Option.bind_eq_some_iff.mp read
    split at read
    · rename_i inside
      obtain ⟨date, hour, minute, second, near⟩ := inside
      have range : w.InRange := ⟨year, fields, fraction, date, Nat.le_of_lt_succ hour, Nat.le_of_lt_succ minute,
        Nat.le_of_lt_succ second⟩
      obtain ⟨day, time, nanos, rfl⟩ := (shown range offset).mp (Option.some.inj read)
      exact ⟨range, zone, near, day, time, nanos⟩
    · cases read
  · rintro ⟨range, zone, near, day, time, nanos⟩
    rw [resolve?_of_digits range.year range.fields range.fraction, zone, Option.bind_some,
      if_pos ⟨range.date, Nat.lt_succ_of_le range.hour, Nat.lt_succ_of_le range.minute,
        Nat.lt_succ_of_le range.second, near⟩]
    exact congrArg some ((shown range t.offset).mpr ⟨day, time, nanos, rfl⟩)

theorem InRange.exists_shown (range : w.InRange) (few : w.fraction.length ≤ 9) (offset : Int) :
    ∃ t, w.Shows t ∧ t.offset = offset := by
  obtain ⟨day, time, nanos, same⟩ := (eq_iff_shown range.date range.clock_lt (range.nanos_lt few)).mp rfl
  exact ⟨_, ⟨day, time, nanos⟩, same⟩

end Written

/-! ### Zones -/

theorem minutes_of_zone {z : WrittenZone} {cs : List Char} (spelled : ZoneSpelled (some z) cs) :
    z.minutes = [] ∨ IsPair z.minutes := by
  cases spelled with
  | hours _ _ => exact .inl rfl
  | minutes _ _ _ pair => exact .inr pair

namespace WrittenZone

variable {z : WrittenZone}

def ahead (z : WrittenZone) : Int :=
  let seconds : Int := Digits.value z.hours * 3600 + Digits.value z.minutes * 60
  if z.negative then -seconds else seconds

structure InRange (z : WrittenZone) : Prop where
  hours_digits : Digits.IsRun z.hours
  minutes_digits : ∀ c ∈ z.minutes, c.isDigit = true
  hours : Digits.value z.hours ≤ 23
  minutes : Digits.value z.minutes ≤ 59

/-- Hours and minutes together are less than a day. The minutes may be more than an hour, and of digits that are
not ASCII they may count as none. -/
structure WithinDay (z : WrittenZone) : Prop where
  hours_digits : Digits.IsRun z.hours
  hours : Digits.value z.hours ≤ 23
  together : ∃ minutes, zoneMinutes? z.minutes = some minutes ∧ Digits.value z.hours * 60 + minutes < 1440

theorem offset?_eq_some_iff {offset : Int} :
    z.offset? = some offset ↔ Digits.IsRun z.hours ∧ ∃ minutes, zoneMinutes? z.minutes = some minutes ∧
      (if z.negative then -(Digits.value z.hours * 3600 + minutes * 60 : Int)
        else Digits.value z.hours * 3600 + minutes * 60) = offset := by
  simp only [offset?, Option.bind_eq_bind, Option.bind_eq_some_iff, Digits.run?_eq_some_iff, Option.pure_def, Option.some_inj]
  constructor
  · rintro ⟨_, ⟨run, rfl⟩, minutes, read, value⟩
    exact ⟨run, minutes, read, value⟩
  · rintro ⟨run, minutes, read, value⟩
    exact ⟨_, ⟨run, rfl⟩, minutes, read, value⟩

theorem withinDay_iff : z.WithinDay ↔ ∃ offset, z.offset? = some offset ∧ offset.natAbs < 86400 := by
  constructor
  · rintro ⟨run, _, minutes, read, together⟩
    refine ⟨_, offset?_eq_some_iff.mpr ⟨run, minutes, read, rfl⟩, ?_⟩
    split <;> omega
  · rintro ⟨offset, read, near⟩
    obtain ⟨run, minutes, counted, rfl⟩ := offset?_eq_some_iff.mp read
    have total : Digits.value z.hours * 3600 + minutes * 60 < 86400 := by split at near <;> omega
    exact ⟨run, by omega, minutes, counted, by omega⟩

theorem offset?_of_inRange (range : z.InRange) (pair : z.minutes = [] ∨ IsPair z.minutes) :
    z.offset? = some z.ahead ∧ z.ahead.natAbs < 86400 := by
  have minutes : zoneMinutes? z.minutes = some (Digits.value z.minutes) := by
    rcases pair with none | ⟨a, b, both, _⟩
    · rw [none]
      rfl
    · have digits := range.minutes_digits
      rw [both] at digits ⊢
      rw [zoneMinutes?_digits (digits a (by simp)) (digits b (by simp)),
        Digits.run?_eq_some_iff.mpr ⟨⟨List.cons_ne_nil a [b], digits⟩, rfl⟩]
  have small := range.hours
  have small' := range.minutes
  constructor
  · rw [offset?, Digits.run?_eq_some_iff.mpr ⟨range.hours_digits, rfl⟩, minutes]
    rfl
  · unfold ahead
    dsimp only
    split <;> omega

end WrittenZone

namespace Written

variable {w : Written} {t : Timestamp}

def ahead (w : Written) : Int := (w.zone.map WrittenZone.ahead).getD 0

theorem offset?_eq_ahead (s : Spelling w) (zone : ∀ z ∈ w.zone, z.InRange) :
    w.offset? = some w.ahead ∧ w.ahead.natAbs < 86400 := by
  have spelled := s.zone_spelled
  unfold offset? ahead
  cases written : w.zone with
  | none => exact ⟨rfl, by decide⟩
  | some z =>
    rw [written] at spelled
    exact WrittenZone.offset?_of_inRange (zone z written) (minutes_of_zone spelled)

end Written

/-! ### Texts -/

theorem ofText?_eq_some_iff {text : String} {t : Timestamp} :
    ofText? text = some t ↔ ∃ w, written? (trimBlanks text.toList) = some w ∧
      (∃ s : Spelling w, s.chars = trimBlanks text.toList) ∧
      w.InRange ∧ w.offset? = some t.offset ∧ t.offset.natAbs < 86400 ∧ w.Shows t := by
  constructor
  · intro given
    obtain ⟨w, read, resolved⟩ := Option.bind_eq_some_iff.mp given
    obtain ⟨s, spelled⟩ := exists_spelling read
    exact ⟨w, read, ⟨s, spelled⟩, (Written.resolve?_eq_some_iff (length_fraction s.fraction_spelled)).mp resolved⟩
  · rintro ⟨w, read, ⟨s, _⟩, shown⟩
    exact Option.bind_eq_some_iff.mpr
      ⟨w, read, (Written.resolve?_eq_some_iff (length_fraction s.fraction_spelled)).mpr shown⟩

end TemplateExpr.Timestamp
