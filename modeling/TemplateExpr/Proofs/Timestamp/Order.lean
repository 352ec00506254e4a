import TemplateExpr.Timestamp.Basic
import Mathlib.Data.Prod.Lex
import Mathlib.Order.Compare
/-!
The order of timestamps. It goes by the seconds and then by the nanoseconds behind them, so that a leap second lies
before the second after it. Their instants coincide: there, and nowhere else, the order of the instants is another.
-/
namespace TemplateExpr.Timestamp

variable {s t u : Timestamp}

theorem seconds_of_plain (plain : t.leap = false) : t.seconds = t.instant / nanosPerSecond := by
  rw [seconds, plain]
  exact Int.sub_zero _

theorem eq_of_plain (plain : t.leap = false) : ⟨t.instant, t.offset⟩ = t := by
  obtain ⟨instant, offset, leap⟩ := t
  cases plain
  rfl

theorem seconds_of_leap (told : t.leap = true) : t.seconds = t.instant / nanosPerSecond - 1 := by
  rw [seconds, told]
  rfl

theorem told_of_parts {whole : ℤ} {part : ℕ} (few : part < tenPow 9) (offset : ℤ) :
    seconds ⟨whole * nanosPerSecond + part, offset⟩ = whole ∧ nanos ⟨whole * nanosPerSecond + part, offset⟩ = part := by
  have power : tenPow 9 = 1000000000 := rfl
  have seconds : seconds ⟨whole * nanosPerSecond + part, offset⟩ = whole := by
    rw [seconds_of_plain rfl]
    unfold nanosPerSecond
    dsimp only
    omega
  refine ⟨seconds, ?_⟩
  rw [nanos, seconds]
  dsimp only
  omega

theorem nanos_bounds (t : Timestamp) :
    (t.leap = false ∧ t.nanos < tenPow 9) ∨ (t.leap = true ∧ tenPow 9 ≤ t.nanos ∧ t.nanos < 2 * tenPow 9) := by
  have power : tenPow 9 = 1000000000 := rfl
  cases told : t.leap with
  | false =>
    have whole := seconds_of_plain told
    refine .inl ⟨rfl, ?_⟩
    unfold nanos nanosPerSecond at *
    omega
  | true =>
    have whole := seconds_of_leap told
    refine .inr ⟨rfl, ?_⟩
    unfold nanos nanosPerSecond at *
    omega

theorem nanos_lt_iff (t : Timestamp) : t.nanos < tenPow 9 ↔ t.leap = false := by
  rcases t.nanos_bounds with ⟨plain, few⟩ | ⟨told, many, _⟩
  · simp [plain, few]
  · simp [told, many]

theorem instant_eq (t : Timestamp) : t.instant = t.seconds * nanosPerSecond + t.nanos := by
  have above : 0 ≤ t.instant - t.seconds * nanosPerSecond := by
    cases told : t.leap with
    | false =>
      rw [seconds_of_plain told]
      unfold nanosPerSecond
      omega
    | true =>
      rw [seconds_of_leap told]
      unfold nanosPerSecond
      omega
  rw [nanos]
  omega

def key (t : Timestamp) : ℤ ×ₗ ℕ := toLex (t.seconds, t.nanos)

theorem compare_eq_cmp_key (s t : Timestamp) : s.compare t = cmp s.key t.key := (cmp_eq_compare s.key t.key).symm

theorem key_lt_iff : s.key < t.key ↔ s.seconds < t.seconds ∨ s.seconds = t.seconds ∧ s.nanos < t.nanos :=
  Prod.Lex.toLex_lt_toLex

/-- `s` is in a leap second, and `t` in the second after it with no more behind the second. -/
def Overtakes (s t : Timestamp) : Prop :=
  s.leap = true ∧ t.leap = false ∧ t.seconds = s.seconds + 1 ∧ t.nanos + tenPow 9 ≤ s.nanos

/-- Nothing else comes first without having the lesser instant. -/
theorem overtakes_iff : s.Overtakes t ↔ s.key < t.key ∧ t.instant ≤ s.instant := by
  have power : tenPow 9 = 1000000000 := rfl
  have first := s.instant_eq
  have second := t.instant_eq
  rw [key_lt_iff]
  unfold nanosPerSecond at *
  constructor
  · rintro ⟨_, _, next, less⟩
    omega
  · rintro ⟨before, not_after⟩
    rcases s.nanos_bounds with ⟨_, few⟩ | ⟨told, _, few⟩
    · omega
    · rcases t.nanos_bounds with ⟨plain, few'⟩ | ⟨_, many, _⟩
      · exact ⟨told, plain, by omega, by omega⟩
      · omega

theorem instant_lt_of_key_lt (before : s.key < t.key) (apart : ¬ s.Overtakes t) : s.instant < t.instant :=
  not_le.mp fun later => apart (overtakes_iff.mpr ⟨before, later⟩)

theorem instant_eq_of_key_eq (same : s.key = t.key) : s.instant = t.instant := by
  obtain ⟨seconds, nanos⟩ := Prod.mk.inj (toLex_inj.mp same)
  rw [s.instant_eq, t.instant_eq, seconds, nanos]

/-- Timestamps are ordered as their instants unless one overtakes the other. -/
theorem compare_eq_cmp_instant_iff :
    s.compare t = cmp s.instant t.instant ↔ ¬ s.Overtakes t ∧ ¬ t.Overtakes s := by
  rw [compare_eq_cmp_key]
  constructor
  · intro agree
    refine ⟨fun ahead => ?_, fun ahead => ?_⟩
    · obtain ⟨before, not_after⟩ := overtakes_iff.mp ahead
      rw [(cmp_eq_lt_iff _ _).mpr before, eq_comm, cmp_eq_lt_iff] at agree
      exact agree.not_ge not_after
    · obtain ⟨before, not_after⟩ := overtakes_iff.mp ahead
      rw [(cmp_eq_gt_iff _ _).mpr before, eq_comm, cmp_eq_gt_iff] at agree
      exact agree.not_ge not_after
  · rintro ⟨apart, apart'⟩
    rcases lt_trichotomy s.key t.key with before | same | after
    · rw [(cmp_eq_lt_iff _ _).mpr before, (cmp_eq_lt_iff _ _).mpr (instant_lt_of_key_lt before apart)]
    · rw [(cmp_eq_eq_iff _ _).mpr same, (cmp_eq_eq_iff _ _).mpr (instant_eq_of_key_eq same)]
    · rw [(cmp_eq_gt_iff _ _).mpr after, (cmp_eq_gt_iff _ _).mpr (instant_lt_of_key_lt after apart')]

theorem not_overtakes_of_plain (plain : s.leap = false) : ¬ s.Overtakes t := fun ahead =>
  absurd ahead.1 (Bool.eq_false_iff.mp plain)

theorem compare_of_plain (first : s.leap = false) (second : t.leap = false) :
    s.compare t = cmp s.instant t.instant :=
  compare_eq_cmp_instant_iff.mpr ⟨not_overtakes_of_plain first, not_overtakes_of_plain second⟩

theorem compare_swap (s t : Timestamp) : (s.compare t).swap = t.compare s := by
  rw [compare_eq_cmp_key, compare_eq_cmp_key, cmp_swap]

theorem compare_trans (first : s.compare t ≠ .gt) (second : t.compare u ≠ .gt) : s.compare u ≠ .gt := by
  rw [compare_eq_cmp_key, ne_eq, cmp_eq_gt_iff, not_lt] at first second ⊢
  exact first.trans second

theorem compare_epoch_iff (forward : 0 < t.instant → 0 ≤ t.seconds) : t.compare epoch = .gt ↔ 0 < t.instant := by
  have start : epoch.key = toLex (0, 0) := rfl
  have split := t.instant_eq
  rw [compare_eq_cmp_key, cmp_eq_gt_iff, start, key, Prod.Lex.toLex_lt_toLex]
  unfold nanosPerSecond at split
  dsimp only
  omega

end TemplateExpr.Timestamp
