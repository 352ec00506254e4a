import TemplateExpr.Value.Basic
import TemplateExpr.Proofs.Timestamp.Range
/-!
Conversions among numbers, truth values and dates. A value of these kinds stands for an instant: a number counts its
seconds, a truth value is one of the first two seconds of 1970. Its forms as a number and as a truth value are read
off that instant, which conversions to numbers and to dates leave as it is. Only in the leap second before 1970 a date
counts as one before it, while its number is positive.
-/
namespace TemplateExpr.Value

/-- The values that have an instant to the nanosecond among those of dates. -/
inductive HasInstant : Value → Prop where
  | logic (b : Bool) : HasInstant (logic b)
  | date {t : Timestamp} (range : t.InRange) : HasInstant (date t)
  | number {n : Decimal} (normal : n.IsNormal) (places : n.scale ≤ 9)
      (range : Timestamp.InRange ⟨⌊n.toRat * 10 ^ 9⌋, 0⟩) : HasInstant (number n)

/-- Not a date in the leap second before 1970, where an instant after the start of 1970 has seconds before it. -/
def Forward : Value → Prop
  | date t => 0 < t.instant → 0 ≤ t.seconds
  | _ => True

structure StandsFor (v : Value) (instant : Int) : Prop where
  range : Timestamp.InRange ⟨instant, 0⟩
  number : v.asNumber = .ok (Timestamp.toSeconds ⟨instant, 0⟩)
  logic : v.Forward → v.asLogic = .ok (decide (0 < instant))
  date : ∃ t, v.asDate = .ok t ∧ t.instant = instant ∧ (v.Forward → (Value.date t).Forward)

/-! ### Conversion as taking a form -/

theorem convert_number (v : Value) : v.convert .number = v.asNumber.map number := by cases v <;> rfl

theorem convert_logic (v : Value) : v.convert .logic = v.asLogic.map logic := by cases v <;> rfl

theorem convert_date (v : Value) : v.convert .date = v.asDate.map date := by cases v <;> rfl

/-! ### Values and their instants -/

theorem forward_of_plain {t : Timestamp} (plain : t.leap = false) : (date t).Forward := by
  rw [Forward, Timestamp.seconds_of_plain plain]
  unfold Timestamp.nanosPerSecond
  omega

theorem standsFor_date {t : Timestamp} (range : t.InRange) : StandsFor (date t) t.instant := by
  refine ⟨range, rfl, fun forward => congrArg Except.ok ?_, t, rfl, rfl, id⟩
  rw [Bool.eq_iff_iff, beq_iff_eq, decide_eq_true_iff]
  exact Timestamp.compare_epoch_iff forward

theorem standsFor_toSeconds {t : Timestamp} (range : t.InRange) : StandsFor (number t.toSeconds) t.instant := by
  refine ⟨range, rfl, fun _ => congrArg Except.ok ?_, ⟨t.instant, 0⟩, ?_, rfl, fun _ => forward_of_plain rfl⟩
  · exact decide_eq_decide.mpr (Timestamp.isPositive_toSeconds_iff t)
  · rw [asDate, Timestamp.ofSeconds?_toSeconds range]

theorem standsFor_logic (b : Bool) : StandsFor (logic b) (if b then Timestamp.nanosPerSecond else 0) := by
  cases b
  · exact ⟨by decide +kernel, rfl, fun _ => rfl, _, rfl, rfl, fun _ => forward_of_plain rfl⟩
  · exact ⟨by decide +kernel, by decide +kernel, fun _ => rfl, _, rfl, rfl, fun _ => forward_of_plain rfl⟩

theorem HasInstant.standsFor {v : Value} (start : HasInstant v) : ∃ instant, StandsFor v instant := by
  cases start with
  | logic b => exact ⟨_, standsFor_logic b⟩
  | date range => exact ⟨_, standsFor_date range⟩
  | number normal places range =>
    rw [Timestamp.eq_toSeconds normal places]
    exact ⟨_, standsFor_toSeconds range⟩

/-! ### Chains of conversions -/

theorem standsFor_convert {v : Value} {instant : Int} (stands : StandsFor v instant) {kind : Kind}
    (numeric : kind = .number ∨ kind = .date) :
    ∃ w, v.convert kind = .ok w ∧ StandsFor w instant ∧ (v.Forward → w.Forward) := by
  rcases numeric with rfl | rfl
  · refine ⟨number (Timestamp.toSeconds ⟨instant, 0⟩), ?_, standsFor_toSeconds stands.range, fun _ => trivial⟩
    rw [convert_number, stands.number]
    rfl
  · obtain ⟨t, form, rfl, forward⟩ := stands.date
    refine ⟨date t, ?_, standsFor_date stands.range, forward⟩
    rw [convert_date, form]
    rfl

theorem standsFor_convertAll {v : Value} {instant : Int} (stands : StandsFor v instant) {chain : List Kind}
    (numeric : ∀ kind ∈ chain, kind = .number ∨ kind = .date) :
    ∃ w, chain.foldlM convert v = .ok w ∧ StandsFor w instant ∧ (v.Forward → w.Forward) := by
  induction chain generalizing v with
  | nil => exact ⟨v, rfl, stands, id⟩
  | cons kind chain ih =>
    obtain ⟨next, done, stands, forward⟩ := standsFor_convert stands (numeric kind List.mem_cons_self)
    obtain ⟨w, rest, last, forward'⟩ := ih stands fun kind mem => numeric kind (List.mem_cons_of_mem _ mem)
    refine ⟨w, ?_, last, forward' ∘ forward⟩
    rw [List.foldlM_cons, done]
    exact rest

/-- However often a value is made a number or a date, its number stays the same. So does its truth value, which is true
exactly if the number is positive, unless the value is a date in the leap second before 1970; and then it does not
matter when it is made a truth value. -/
theorem conversions_path_independent {v : Value} (start : HasInstant v) {chain : List Kind}
    (numeric : ∀ kind ∈ chain, kind = .number ∨ kind = .date) :
    ∃ w n, chain.foldlM convert v = .ok w ∧ v.asNumber = .ok n ∧ w.asNumber = .ok n ∧
      (v.Forward → ∃ b, v.asLogic = .ok b ∧ w.asLogic = .ok b ∧ (b = true ↔ 0 < n.toRat) ∧
        ∀ before after, chain = before ++ after → (before ++ [Kind.logic]).foldlM convert v = .ok (logic b)) := by
  -- every form at either end of the chain is read off the one instant
  obtain ⟨instant, stands⟩ := start.standsFor
  obtain ⟨w, done, last, ahead⟩ := standsFor_convertAll stands numeric
  refine ⟨w, _, done, stands.number, last.number, fun forward => ?_⟩
  refine ⟨_, stands.logic forward, last.logic (ahead forward), ?_, ?_⟩
  · rw [decide_eq_true_iff, Decimal.toRat_pos_iff]
    exact (Timestamp.isPositive_toSeconds_iff ⟨instant, 0⟩).symm
  · rintro before after rfl
    obtain ⟨u, front, stands, ahead⟩ :=
      standsFor_convertAll stands fun kind mem => numeric kind (List.mem_append_left _ mem)
    rw [List.foldlM_append, front]
    change ([Kind.logic].foldlM convert u) = _
    rw [List.foldlM_cons, convert_logic, stands.logic (ahead forward)]
    rfl

/-- One and a half seconds before the start of 1970. -/
theorem conversions_path_independent_negative :
    HasInstant (number ⟨-15, 1⟩) ∧ ∃ w, [.date, .number, .date].foldlM convert (number ⟨-15, 1⟩) = .ok w ∧
      w.asNumber = .ok ⟨-15, 1⟩ ∧ [.date, .number, .logic].foldlM convert (number ⟨-15, 1⟩) = .ok (logic false) := by
  have places : (⟨-15, 1⟩ : Decimal).toRat * 10 ^ 9 = (-1500000000 : Int) := by norm_num [Decimal.toRat]
  have start : HasInstant (number ⟨-15, 1⟩) := by
    refine .number ⟨by decide, by decide, by decide, by decide⟩ (by decide) ?_
    rw [places, Int.floor_intCast]
    decide +kernel
  have numeric : ∀ kind ∈ [Kind.date, .number, .date], kind = .number ∨ kind = .date := by decide
  obtain ⟨w, n, done, first, last, steady⟩ := conversions_path_independent start numeric
  obtain ⟨b, truth, _, _, points⟩ := steady trivial
  cases first
  cases truth
  exact ⟨start, w, done, last, points [.date, .number] [.date] rfl⟩

/-- Half of a leap second before 1970 is false, and true by way of its number. -/
theorem conversions_in_leap_second :
    let v := date ⟨500000000, { offset := 0, leap := true }⟩
    v.asText = "1969-12-31T23:59:60.5+00:00" ∧ v.asNumber = .ok ⟨5, 1⟩ ∧ v.asLogic = .ok false ∧
      [Kind.number, .logic].foldlM convert v = .ok (logic true) := by
  decide +kernel

end TemplateExpr.Value
