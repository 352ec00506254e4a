import TemplateExpr.Proofs.Timestamp.Fields
/-!
Which texts are timestamps. The fields of a text that is accepted are in range: they name a day of the calendar and a
time of the day. Of a zone only the hours are in range by themselves, since hours and minutes are looked at together.
A spelling with all fields in range gives the timestamp that shows them.
-/
namespace TemplateExpr.Timestamp

theorem withinDay_zone_iff (w : Written) :
    (∃ offset, w.offset? = some offset ∧ offset.natAbs < 86400) ↔ ∀ z ∈ w.zone, z.WithinDay := by
  unfold Written.offset?
  cases w.zone with
  | none => simp
  | some z => simp [WrittenZone.withinDay_iff]

/-- A text is a timestamp exactly if its fields are in range, all of them but the minutes of the zone: the day is one of
the calendar, the time is one of the day, and the zone has at most 23 hours and is less than a day. -/
theorem accepted_iff (text : String) :
    (∃ t, ofText? text = some t) ↔
      ∃ w, written? (trimBlanks text.toList) = some w ∧ (∃ s : Spelling w, s.chars = trimBlanks text.toList) ∧
        w.InRange ∧ ∀ z ∈ w.zone, z.WithinDay := by
  constructor
  · rintro ⟨t, given⟩
    obtain ⟨w, read, spelled, range, zone, near, _⟩ := ofText?_eq_some_iff.mp given
    exact ⟨w, read, spelled, range, (withinDay_zone_iff w).mp ⟨t.offset, zone, near⟩⟩
  · rintro ⟨w, read, ⟨s, spelled⟩, range, zones⟩
    obtain ⟨offset, zone, near⟩ := (withinDay_zone_iff w).mpr zones
    obtain ⟨t, shown, rfl⟩ := range.exists_shown (length_fraction s.fraction_spelled) offset
    exact ⟨t, ofText?_eq_some_iff.mpr ⟨w, read, ⟨s, spelled⟩, range, zone, near, shown⟩⟩

/-- Ninety-nine minutes make a zone of an hour and 39 minutes. -/
theorem minutes_beyond_hour :
    written? "2024-01-01T10+00:99".toList =
        some ⟨false, ['2', '0', '2', '4'], [['0', '1'], ['0', '1'], ['1', '0']], [], some ⟨false, ['0', '0'], ['9', '9']⟩⟩ ∧
      ofText? "2024-01-01T10+00:99" = some ⟨1704097260000000000, 5940⟩ ∧ ¬ Digits.value ['9', '9'] ≤ 59 := by
  decide +kernel

/-- Each spelling of a timestamp, with any of the separators and cut off behind any field, is read as the timestamp
that shows these fields in that zone. Fields that are not given have the least number. -/
theorem ofText?_spelling {w : Written} (s : Spelling w) (apart : ¬ s.Ambiguous) (range : w.InRange)
    (zone : ∀ z ∈ w.zone, z.InRange) :
    ∃ t, ofText? (String.ofList s.chars) = some t ∧
      t.localDay = w.date ∧ t.clock = w.clock ∧ t.nanos = w.nanos ∧ t.offset = w.ahead := by
  have trimmed : s.trimmed.chars = trimBlanks (String.ofList s.chars).toList := by
    rw [String.toList_ofList, s.trimBlanks_chars]
  have read : written? (trimBlanks (String.ofList s.chars).toList) = some w := by
    rw [← trimmed, written?_chars s.trimmed (s.not_ambiguous_trimmed apart)]
  obtain ⟨offset, near⟩ := Written.offset?_eq_ahead s zone
  obtain ⟨t, shown, same⟩ := range.exists_shown (length_fraction s.fraction_spelled) w.ahead
  have given := ofText?_eq_some_iff.mpr ⟨w, read, ⟨s.trimmed, trimmed⟩, range, same ▸ offset, same ▸ near, shown⟩
  exact ⟨t, given, shown.1, shown.2.1, shown.2.2, same⟩

/-- A leap day before year 0, with some of the separators left out. -/
theorem ofText?_spelling_reduced :
    ∃ t, ofText? "-2004-0229 23:5907,25-0930" = some t ∧
      t.localDay = ⟨-2004, 2, 29⟩ ∧ t.clock = 86347 ∧ t.nanos = 250000000 ∧ t.offset = -34200 := by
  let w : Written := ⟨true, ['2', '0', '0', '4'], [['0', '2'], ['2', '9'], ['2', '3'], ['5', '9'], ['0', '7']],
    ['2', '5'], some ⟨'-' = '-', ['0', '9'], ['3', '0']⟩⟩
  have pair {a b : Char} (digits : isScriptDigit a = true ∧ isScriptDigit b = true) : IsPair [a, b] := ⟨a, b, rfl, digits⟩
  have fields : FieldsSpelled separators w.fields "-0229 23:5907".toList :=
    .field (.inr ⟨'-', by decide, rfl⟩) (pair (by decide)) <| .field (.inl rfl) (pair (by decide)) <|
      .field (.inr ⟨' ', by decide, rfl⟩) (pair (by decide)) <|
      .field (.inr ⟨':', by decide, rfl⟩) (pair (by decide)) <| .field (.inl rfl) (pair (by decide)) .none
  have fraction : FractionSpelled (w.fields.length = separators.length) w.fraction ",25".toList :=
    .digits rfl (.inr rfl) (by decide) (by decide) (List.all_eq_true.mp (by decide))
  have zone : ZoneSpelled w.zone "-0930".toList :=
    .minutes (.inr rfl) (pair (by decide)) (.inl rfl) (pair (by decide))
  let s : Spelling w := ⟨['-'], "-0229 23:5907".toList, ",25".toList, 0, "-0930".toList, .minus, rfl,
    List.all_eq_true.mp (by decide), fields, fraction, zone⟩
  have apart : ¬ s.Ambiguous := fun ambiguous => absurd ambiguous.1 (by decide)
  have range : w.InRange := ⟨by decide, (mapM_run?_eq_some_iff.mp rfl).1, List.all_eq_true.mp (by decide),
    by decide +kernel, by decide, by decide, by decide⟩
  have zoneRange : ∀ z ∈ w.zone, z.InRange := by
    rintro z ⟨⟩
    exact ⟨by decide, List.all_eq_true.mp (by decide), by decide, by decide⟩
  obtain ⟨t, read, day, time, nanos, offset⟩ := ofText?_spelling s apart range zoneRange
  have text : s.chars = "-2004-0229 23:5907,25-0930".toList := rfl
  have shown : w.date = ⟨-2004, 2, 29⟩ ∧ w.clock = 86347 ∧ w.nanos = 250000000 ∧ w.ahead = -34200 := by decide +kernel
  rw [text, String.ofList_toList] at read
  exact ⟨t, read, day.trans shown.1, time.trans shown.2.1, nanos.trans shown.2.2.1, offset.trans shown.2.2.2⟩

end TemplateExpr.Timestamp
