import TemplateExpr.Proofs.Timestamp.Seconds
import TemplateExpr.Proofs.Timestamp.TextRoundTrip
/-!
The instants of timestamps that are read. A text names a year of four digits, so that what it gives lies far within
the range of years; a number gives nothing beyond that range. So every timestamp comes back from its seconds, and a
number of seconds comes back rounded down to nanoseconds.
-/
namespace TemplateExpr.Timestamp

theorem inRange_of_ofText? {text : String} {t : Timestamp} (read : ofText? text = some t) : t.InRange := by
  obtain ⟨w, _, ⟨s, _⟩, range, _, near, shown⟩ := ofText?_eq_some_iff.mp read
  have few := length_fraction s.fraction_spelled
  have instant := (eq_iff_shown range.date range.clock_lt (range.nanos_lt few)).mpr
    ⟨shown.1, shown.2.1, shown.2.2, rfl⟩
  have year : Digits.value w.year < 10000 := by
    have small := Digits.value_lt range.year.2
    rwa [s.year_length] at small
  have signed : w.date.year = if w.negative then -(Digits.value w.year : Int) else Digits.value w.year := rfl
  obtain ⟨first, last⟩ := CalendarDay.toDays_bounds range.date (by split at signed <;> omega)
    (by split at signed <;> omega)
  have clock := range.clock_lt
  have nanos : w.nanos < 1000000000 := range.nanos_lt few
  rw [← instant]
  refine inRange_of_bounds ?_ ?_
  · unfold secondsPerDay nanosPerSecond
    dsimp only
    omega
  · unfold secondsPerDay nanosPerSecond
    dsimp only
    omega

theorem inRange_of_given {t : Timestamp} (given : t.Given) : t.InRange := by
  rcases given with ⟨text, read⟩ | ⟨seconds, read⟩
  · exact inRange_of_ofText? read
  · exact (inRange_of_ofSeconds? read).2

theorem compare_ne_gt_iff {s t : Timestamp} (first : s.leap = false) (second : t.leap = false) :
    s.compare t ≠ .gt ↔ s.instant ≤ t.instant := by
  rw [compare_of_plain first second, ne_eq, cmp_eq_gt_iff, not_lt]

/-- Seconds are exact. Every timestamp that a text or a number gives comes back from its seconds as the same instant in
UTC. A number that names a timestamp comes back rounded down to nanoseconds. And the greater of two numbers does not
name the earlier timestamp. -/
theorem seconds_exact :
    (∀ t : Timestamp, t.Given → ofSeconds? t.toSeconds = some ⟨t.instant, 0⟩) ∧
    (∀ (seconds : Decimal) (t : Timestamp), ofSeconds? seconds = some t →
      t.toSeconds.IsNormal ∧ t.toSeconds.toRat = ⌊seconds.toRat * 10 ^ 9⌋ / 10 ^ 9) ∧
    ∀ (a b : Decimal) (s t : Timestamp), ofSeconds? a = some s → ofSeconds? b = some t →
      a.compare b ≠ .gt → s.compare t ≠ .gt := by
  refine ⟨?_, ?_, ?_⟩
  · intro t given
    exact ofSeconds?_toSeconds (inRange_of_given given)
  · intro seconds t read
    obtain ⟨rfl, _⟩ := ofSeconds?_sound read
    refine ⟨isNormal_toSeconds _, ?_⟩
    rw [toRat_toSeconds, zpow_neg, div_eq_mul_inv]
    rfl
  · intro a b s t first second order
    obtain ⟨rfl, _⟩ := ofSeconds?_sound first
    obtain ⟨rfl, _⟩ := ofSeconds?_sound second
    rw [Decimal.compare_eq_cmp, ne_eq, cmp_eq_gt_iff, not_lt] at order
    rw [compare_ne_gt_iff rfl rfl]
    exact Int.floor_mono (mul_le_mul_of_nonneg_right order (by positivity))

/-- Below zero, half a second and less than a nanosecond behind a whole one, and the least magnitude below zero. -/
theorem seconds_exact_negative :
    ofSeconds? ⟨-15000000001, 10⟩ = some ⟨-1500000001, 0⟩ ∧
      (⟨-1500000001, 0⟩ : Timestamp).toSeconds.toRat = ⌊(⟨-15000000001, 10⟩ : Decimal).toRat * 10 ^ 9⌋ / 10 ^ 9 ∧
      ofSeconds? (⟨-1500000001, 0⟩ : Timestamp).toSeconds = some ⟨-1500000001, 0⟩ ∧
      ofSeconds? ⟨-1, 1000⟩ = some ⟨-1, 0⟩ ∧
      (⟨-1500000001, 0⟩ : Timestamp).compare ⟨-1, 0⟩ ≠ .gt := by
  have half : ofSeconds? ⟨-15000000001, 10⟩ = some ⟨-1500000001, 0⟩ := by decide +kernel
  have least : ofSeconds? ⟨-1, 1000⟩ = some ⟨-1, 0⟩ := by decide +kernel
  obtain ⟨back, value, order⟩ := seconds_exact
  exact ⟨half, (value _ _ half).2, back _ (.inr ⟨_, half⟩), least, order _ _ _ _ half least (by decide +kernel)⟩

end TemplateExpr.Timestamp
