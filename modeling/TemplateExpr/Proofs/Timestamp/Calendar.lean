import TemplateExpr.Timestamp.Calendar
import Mathlib.Tactic.IntervalCases
/-!
Days and dates correspond one to one. A day has one year in March reckoning, since the years follow each other
without gaps, and in it one month; the date it is given is valid, and every valid date is that of its day.
-/
namespace TemplateExpr.CalendarDay

theorem yearStart_mono {year later : Int} (order : year ≤ later) : yearStart year ≤ yearStart later := by
  unfold yearStart
  omega

theorem daysInMonth_le (year : Int) (month : Nat) : daysInMonth year month ≤ 31 := by
  unfold daysInMonth
  split
  all_goals try decide
  split <;> decide

def InYear (days year : Int) : Prop := yearStart year ≤ days ∧ days < yearStart (year + 1)

theorem inYear_unique {days year other : Int} (h : InYear days year) (h' : InYear days other) :
    year = other := by
  rcases lt_trichotomy year other with before | same | after
  · have := yearStart_mono (show year + 1 ≤ other from before)
    unfold InYear at h h'
    omega
  · exact same
  · have := yearStart_mono (show other + 1 ≤ year from after)
    unfold InYear at h h'
    omega

theorem inYear_yearOf (days : Int) : InYear days (yearOf days) := by
  unfold yearOf
  extract_lets guess
  have low : yearStart (guess - 1) ≤ days := by unfold yearStart; omega
  have high : days < yearStart (guess + 1 + 1) := by unfold yearStart; omega
  unfold InYear
  split
  · rw [Int.sub_add_cancel]; omega
  · split
    · omega
    · omega

theorem yearStart_succ (year : Int) :
    yearStart (year + 1) = yearStart year + 365 + if isLeap (year + 1) then 1 else 0 := by
  have leap : isLeap (year + 1) = true ↔ (year + 1) % 4 = 0 ∧ ((year + 1) % 100 ≠ 0 ∨ (year + 1) % 400 = 0) := by
    simp [isLeap]
  by_cases h : isLeap (year + 1) = true
  · rw [if_pos h]
    rw [leap] at h
    unfold yearStart
    omega
  · rw [if_neg h]
    rw [leap] at h
    unfold yearStart
    omega

theorem year_ofDays (days : Int) :
    ∃ year, InYear (days + epochOffset) year ∧ ((ofDays days).year = year ∨ (ofDays days).year = year + 1) := by
  refine ⟨_, inYear_yearOf _, ?_⟩
  unfold ofDays
  dsimp only
  split
  · exact Or.inl rfl
  · exact Or.inr rfl

/-- The date of a day of a month in March reckoning, March being month 0. -/
def ofMarch (year month day : Int) : CalendarDay :=
  if month < 10 then ⟨year, (month + 3).toNat, day.toNat⟩ else ⟨year + 1, (month - 9).toNat, day.toNat⟩

section March

variable {year month day : Int}

theorem toDays_ofMarch (first : 0 ≤ month) (last : month ≤ 11) (positive : 1 ≤ day) :
    (ofMarch year month day).toDays = yearStart year + monthStart month + day - 1 - epochOffset := by
  have count : (day.toNat : Int) = day := by omega
  unfold ofMarch
  split
  · have late : ¬ (month + 3).toNat ≤ 2 := by omega
    have place : ((month + 3).toNat : Int) - 3 = month := by omega
    simp only [toDays, late, if_false, place, count]
  · have early : (month - 9).toNat ≤ 2 := by omega
    have place : ((month - 9).toNat : Int) + 9 = month := by omega
    simp only [toDays, early, if_true, place, count, Int.add_sub_cancel]

theorem valid_ofMarch_iff (first : 0 ≤ month) (last : month ≤ 11) :
    (ofMarch year month day).Valid ↔
      1 ≤ day ∧ monthStart month + day - 1 < monthStart (month + 1) ∧
        yearStart year + monthStart month + day - 1 < yearStart (year + 1) := by
  have length := yearStart_succ year
  interval_cases month <;> simp only [ofMarch, Valid, daysInMonth, monthStart] <;> split at length <;>
    simp_all <;> omega

theorem exists_ofMarch {d : CalendarDay} (valid : d.Valid) :
    ∃ year month day : Int, 0 ≤ month ∧ month ≤ 11 ∧ 1 ≤ day ∧ ofMarch year month day = d := by
  obtain ⟨year, month, day⟩ := d
  obtain ⟨first, last, positive, _⟩ := valid
  simp only at first last positive
  by_cases early : month ≤ 2
  · refine ⟨year - 1, month + 9, day, by omega, by omega, by omega, ?_⟩
    rw [ofMarch, if_neg (by omega)]
    simp
  · refine ⟨year, month - 3, day, by omega, by omega, by omega, ?_⟩
    rw [ofMarch, if_pos (by omega)]
    simp

theorem month_bounds {rest : Int} (first : 0 ≤ rest) (last : rest < 366) :
    0 ≤ (5 * rest + 2) / 153 ∧ (5 * rest + 2) / 153 ≤ 11 ∧
      monthStart ((5 * rest + 2) / 153) ≤ rest ∧ rest < monthStart ((5 * rest + 2) / 153 + 1) := by
  unfold monthStart
  omega

theorem month_unique {rest : Int} (low : monthStart month ≤ rest) (high : rest < monthStart (month + 1)) :
    (5 * rest + 2) / 153 = month := by
  unfold monthStart at low high
  omega

theorem ofDays_eq_ofMarch (days : Int) :
    ∃ year month day : Int, 0 ≤ month ∧ month ≤ 11 ∧ ofDays days = ofMarch year month day ∧
      (ofMarch year month day).Valid ∧
        days + epochOffset = yearStart year + monthStart month + day - 1 := by
  obtain ⟨low, high⟩ := inYear_yearOf (days + epochOffset)
  have length := yearStart_succ (yearOf (days + epochOffset))
  obtain ⟨rest, place⟩ : ∃ rest, rest = days + epochOffset - yearStart (yearOf (days + epochOffset)) :=
    ⟨_, rfl⟩
  have bound : rest < 366 := by split at length <;> omega
  obtain ⟨first, last, start, stop⟩ := month_bounds (by omega) bound
  refine ⟨yearOf (days + epochOffset), (5 * rest + 2) / 153,
    rest - monthStart ((5 * rest + 2) / 153) + 1, first, last, ?_, ?_, by omega⟩
  · rw [place]
    rfl
  · rw [valid_ofMarch_iff first last]
    omega

end March

theorem valid_ofDays (days : Int) : (ofDays days).Valid := by
  obtain ⟨year, month, day, _, _, same, valid, _⟩ := ofDays_eq_ofMarch days
  rwa [same]

theorem toDays_ofDays (days : Int) : (ofDays days).toDays = days := by
  obtain ⟨year, month, day, first, last, same, valid, place⟩ := ofDays_eq_ofMarch days
  have positive := ((valid_ofMarch_iff first last).mp valid).1
  rw [same, toDays_ofMarch first last positive]
  omega

theorem toDays_bounds {d : CalendarDay} (valid : d.Valid) (first : -9999 ≤ d.year) (last : d.year ≤ 9999) :
    -10000000 < d.toDays ∧ d.toDays < 10000000 := by
  obtain ⟨_, december, _, day⟩ := valid
  have length := daysInMonth_le d.year d.month
  unfold toDays yearStart monthStart epochOffset
  dsimp only
  split
  · omega
  · omega

theorem ofDays_toDays {d : CalendarDay} (valid : d.Valid) : ofDays d.toDays = d := by
  obtain ⟨year, month, day, first, last, positive, rfl⟩ := exists_ofMarch valid
  obtain ⟨_, inMonth, inYear⟩ := (valid_ofMarch_iff first last).mp valid
  have days := @toDays_ofMarch year _ _ first last positive
  have start : 0 ≤ monthStart month := by unfold monthStart; omega
  have years : yearOf ((ofMarch year month day).toDays + epochOffset) = year := by
    refine inYear_unique (inYear_yearOf _) ⟨?_, ?_⟩ <;> omega
  have months : (5 * (monthStart month + day - 1) + 2) / 153 = month :=
    month_unique (by omega) (by omega)
  have rest : (ofMarch year month day).toDays + epochOffset - yearStart year =
      monthStart month + day - 1 := by omega
  unfold ofDays
  dsimp only
  rw [years, rest, months, show monthStart month + day - 1 - monthStart month + 1 = day by omega]
  rfl

end TemplateExpr.CalendarDay
