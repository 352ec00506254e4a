import TemplateExpr.Timestamp.Basic
import TemplateExpr.Proofs.Decimal.IntegerDivision
import TemplateExpr.Proofs.Decimal.Rounding
import TemplateExpr.Proofs.Timestamp.Calendar
/-!
Timestamps as seconds since 1970. A number of seconds names the nanosecond below it, negative numbers and numbers
with further digits included, since both the second and what is left of it are rounded down. Every instant of the
years that timestamps have comes back from its seconds, and every number of seconds with at most nine places is that
of its instant.
-/
namespace TemplateExpr.Timestamp

def utcDay (t : Timestamp) : CalendarDay := CalendarDay.ofDays (t.instant / (nanosPerSecond * secondsPerDay))

/-- The instant is in a year that numbers can name. That of a leap second is taken for the second after it. -/
def InRange (t : Timestamp) : Prop := leastYear ≤ t.utcDay.year ∧ t.utcDay.year ≤ greatestYear

instance (t : Timestamp) : Decidable t.InRange := inferInstanceAs (Decidable (_ ∧ _))

theorem instant_bounds {t : Timestamp} (range : t.InRange) :
    -10000000000000000000000 < t.instant ∧ t.instant < 10000000000000000000000 := by
  obtain ⟨year, ⟨low, high⟩, calendar⟩ := CalendarDay.year_ofDays (t.instant / (nanosPerSecond * secondsPerDay))
  unfold InRange utcDay leastYear greatestYear at range
  unfold CalendarDay.yearStart CalendarDay.epochOffset at low high
  unfold nanosPerSecond secondsPerDay at *
  omega

theorem inRange_of_bounds {t : Timestamp} (low : -1000000000000000000000 < t.instant)
    (high : t.instant < 1000000000000000000000) : t.InRange := by
  obtain ⟨year, ⟨first, last⟩, calendar⟩ := CalendarDay.year_ofDays (t.instant / (nanosPerSecond * secondsPerDay))
  unfold InRange utcDay leastYear greatestYear
  unfold CalendarDay.yearStart CalendarDay.epochOffset at first last
  unfold nanosPerSecond secondsPerDay at *
  omega

section OfSeconds

theorem eq_floor_of_takes {x : ℚ} {n : ℤ} (takes : RoundingMode.floor.Takes x n) : n = ⌊x⌋ := by
  obtain ⟨near, below⟩ := takes
  rw [abs_sub_comm, abs_lt] at near
  rw [eq_comm, Int.floor_eq_iff]
  constructor <;> linarith

theorem roundToScale_nanos (d : Decimal) :
    ∃ cut, d.roundToScale 9 .floor = .ok cut ∧ cut.toRat = ⌊d.toRat * 10 ^ (9 : ℤ)⌋ * 10 ^ (-9 : ℤ) := by
  have place : max Decimal.minScale (min 9 Decimal.maxScale) = 9 := by decide
  rw [Decimal.roundToScale, place]
  split
  · rename_i fits
    refine ⟨d, rfl, ?_⟩
    rw [← Decimal.scaled_eq d fits, Int.floor_intCast]
    exact Decimal.toRat_of_scale_le fits
  · have rounding := Decimal.rounding_roundDropping (Decimal.cutsTo_self d.unscaled) d.scale (d.scale - 9).toNat
      (absurd · Bool.false_ne_true) .floor
    have same : d.scale - (d.scale - 9).toNat = 9 := by omega
    rw [same] at rounding
    obtain ⟨cut, done⟩ := Decimal.ok_of_place rounding (by decide) (by decide) (.inl (by decide))
    obtain ⟨n, takes, value⟩ := Decimal.rounds_of_ok rounding done
    exact ⟨cut, done, by rw [value, eq_floor_of_takes takes]; rfl⟩

variable {cut : Decimal} {n : ℤ} (value : cut.toRat = n * 10 ^ (-9 : ℤ))
include value

theorem floor_nanos : cut.floor = n / nanosPerSecond := by
  have quotient : cut.toRat = n / (1000000000 : ℕ) := by
    rw [value, div_eq_mul_inv]
    norm_num
  rw [Decimal.floor_eq, quotient, Rat.floor_intCast_div_natCast]
  rfl

/-- What is left of a whole second counts upwards from the second below. -/
theorem trunc_nanos :
    ((cut.sub (Decimal.ofInt cut.floor)).mul (Decimal.ofInt nanosPerSecond)).trunc = n % nanosPerSecond := by
  have parts := Int.mul_ediv_add_emod n nanosPerSecond
  have rest : ((cut.sub (Decimal.ofInt cut.floor)).mul (Decimal.ofInt nanosPerSecond)).toRat =
      (n % nanosPerSecond : ℤ) := by
    rw [Decimal.toRat_mul, Decimal.toRat_sub, Decimal.toRat_ofInt, Decimal.toRat_ofInt, floor_nanos value, value]
    have split : (n : ℚ) = nanosPerSecond * (n / nanosPerSecond : ℤ) + (n % nanosPerSecond : ℤ) := by
      exact_mod_cast parts.symm
    have unit : (nanosPerSecond : ℚ) = 10 ^ (9 : ℤ) := by norm_num [nanosPerSecond]
    rw [sub_mul, mul_assoc, unit, ← zpow_add₀ (by norm_num), neg_add_cancel, zpow_zero, mul_one, ← unit]
    linarith
  rw [Decimal.trunc_eq_towardsZero, rest, Decimal.towardsZero_intCast]

omit value in
theorem ofSeconds?_eq {seconds : Decimal} (short : seconds.integerDigits ≤ 19) :
    let t : Timestamp := ⟨⌊seconds.toRat * 10 ^ (9 : ℤ)⌋, 0⟩
    ofSeconds? seconds = if t.InRange then some t else none := by
  intro t
  obtain ⟨cut, done, value⟩ := roundToScale_nanos seconds
  change cut.toRat = t.instant * 10 ^ (-9 : ℤ) at value
  have low : 0 ≤ t.instant % nanosPerSecond := Int.emod_nonneg _ (by decide)
  have high : t.instant % nanosPerSecond < nanosPerSecond := Int.emod_lt_of_pos _ (by decide)
  have day : t.utcDay = CalendarDay.ofDays (t.instant / nanosPerSecond / secondsPerDay) := by
    rw [Int.ediv_ediv_of_nonneg (by decide)]
    rfl
  rw [ofSeconds?, if_neg (not_lt.mpr short), done]
  dsimp only
  rw [trunc_nanos value, floor_nanos value, ← day, Int.ediv_mul_add_emod]
  by_cases range : t.InRange
  · have fits : FitsSigned 64 (t.instant / nanosPerSecond) := by
      obtain ⟨least, most⟩ := instant_bounds range
      rw [Decimal.fitsSigned_64_iff]
      unfold nanosPerSecond
      omega
    rw [if_pos range, if_pos ⟨low, high, fits, range⟩]
  · rw [if_neg range, if_neg fun all => range all.2.2.2]

omit value in
theorem ofSeconds?_sound {seconds : Decimal} {t : Timestamp} (read : ofSeconds? seconds = some t) :
    t = ⟨⌊seconds.toRat * 10 ^ (9 : ℤ)⌋, 0⟩ ∧ t.InRange := by
  by_cases short : seconds.integerDigits ≤ 19
  · rw [ofSeconds?_eq short] at read
    split at read
    · rename_i range
      cases read
      exact ⟨rfl, range⟩
    · cases read
  · rw [ofSeconds?, if_pos (not_le.mp short)] at read
    cases read

omit value in
theorem inRange_of_ofSeconds? {seconds : Decimal} {t : Timestamp} (read : ofSeconds? seconds = some t) :
    t.offset = 0 ∧ t.InRange := by
  obtain ⟨rfl, range⟩ := ofSeconds?_sound read
  exact ⟨rfl, range⟩

end OfSeconds

theorem isNormal_toSeconds (t : Timestamp) : t.toSeconds.IsNormal :=
  Decimal.isNormal_normalize (by decide) (by decide)

theorem toRat_toSeconds (t : Timestamp) : t.toSeconds.toRat = t.instant * 10 ^ (-9 : Int) :=
  Decimal.toRat_normalize t.instant 9

theorem isPositive_toSeconds_iff (t : Timestamp) : t.toSeconds.IsPositive ↔ 0 < t.instant := by
  rw [Decimal.IsPositive, ← Decimal.toRat_pos_iff, Timestamp.toRat_toSeconds,
    mul_pos_iff_of_pos_right (Decimal.unit_pos 9), Int.cast_pos]

theorem eq_toSeconds {n : Decimal} (normal : n.IsNormal) (places : n.scale ≤ 9) :
    n = toSeconds ⟨⌊n.toRat * 10 ^ 9⌋, 0⟩ := by
  have nanos : n.toRat * 10 ^ 9 = (n.unscaled * tenPow (9 - n.scale).toNat : Int) := (Decimal.scaled_eq n places).symm
  refine Decimal.eq_normalize normal (by decide) (by decide) ?_
  rw [nanos, Int.floor_intCast]
  exact Decimal.toRat_of_scale_le places

theorem integerDigits_toSeconds {t : Timestamp} (range : t.InRange) : t.toSeconds.integerDigits ≤ 19 := by
  obtain ⟨low, high⟩ := instant_bounds range
  have bound : |(t.instant : ℚ)| < 10 ^ (22 : Int) := by
    rw [abs_lt]
    constructor
    · exact_mod_cast low
    · exact_mod_cast high
  refine Decimal.integerDigits_le_of_abs_lt (isNormal_toSeconds t) (by decide) ?_
  rw [toRat_toSeconds, abs_mul, abs_of_pos (Decimal.unit_pos 9)]
  calc
    |(t.instant : ℚ)| * 10 ^ (-9 : Int) < 10 ^ (22 : Int) * 10 ^ (-9 : Int) :=
      mul_lt_mul_of_pos_right bound (Decimal.unit_pos 9)
    _ ≤ 10 ^ 19 := by norm_num

theorem ofSeconds?_toSeconds {t : Timestamp} (range : t.InRange) : ofSeconds? t.toSeconds = some ⟨t.instant, 0⟩ := by
  have same : ⌊t.toSeconds.toRat * 10 ^ (9 : ℤ)⌋ = t.instant := by
    rw [toRat_toSeconds, mul_assoc, ← zpow_add₀ (by norm_num), neg_add_cancel, zpow_zero, mul_one, Int.floor_intCast]
  rw [ofSeconds?_eq (integerDigits_toSeconds range), same]
  exact if_pos range

end TemplateExpr.Timestamp
