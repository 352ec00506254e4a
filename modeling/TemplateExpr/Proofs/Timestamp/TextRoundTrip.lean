import TemplateExpr.Proofs.Timestamp.Fields
import TemplateExpr.Proofs.Timestamp.Seconds
/-!
Timestamps as text. What is written is a spelling of the fields that are shown, if the year has four digits. A longer
year leaves digits behind the four that are read as the year; whatever fields these are taken for, the reading gets
stuck in front of the month or the day.
-/
namespace TemplateExpr.Timestamp

def laterFields (t : Timestamp) : List (List Char) :=
  [padded 2 t.localDay.month, padded 2 t.localDay.day, padded 2 (t.clock / 3600), padded 2 (t.clock / 60 % 60),
    padded 2 (t.clock % 60)]

def tailChars (t : Timestamp) : List Char :=
  '-' :: (padded 2 t.localDay.month ++ '-' :: (padded 2 t.localDay.day ++
    'T' :: (padded 2 (t.clock / 3600) ++ ':' :: (padded 2 (t.clock / 60 % 60) ++
      ':' :: (padded 2 (t.clock % 60 + t.nanos / tenPow 9) ++
        (fractionChars (t.nanos % tenPow 9) ++ zoneChars t.offset))))))

theorem toChars_eq (t : Timestamp) : t.toChars = yearChars t.localDay.year ++ t.tailChars := by
  simp only [toChars, tailChars, localDay, localSeconds, clock, List.append_assoc, List.cons_append]

theorem month_lt (t : Timestamp) : t.localDay.month < 100 := by
  obtain ⟨_, month, _⟩ := t.localDay_valid
  omega

theorem day_lt (t : Timestamp) : t.localDay.day < 100 := by
  obtain ⟨_, _, _, date⟩ := t.localDay_valid
  have length := CalendarDay.daysInMonth_le t.localDay.year t.localDay.month
  omega

/-! ### What is written is a spelling -/

def zoneOf (offset : Int) : WrittenZone :=
  ⟨offset < 0, padded 2 ((offset.natAbs + 30) / 60 / 60), padded 2 ((offset.natAbs + 30) / 60 % 60)⟩

def written (t : Timestamp) : Written :=
  ⟨t.localDay.year < 0, padded 4 t.localDay.year.natAbs, t.laterFields, fractionDigits t.nanos, some (zoneOf t.offset)⟩

theorem isPair_padded {n : Nat} (bound : n < 100) : IsPair (padded 2 n) := by
  obtain ⟨a, b, both⟩ : ∃ a b, padded 2 n = [a, b] := by
    match padded 2 n, length_padded (by decide) bound with
    | [a, b], _ => exact ⟨a, b, rfl⟩
  have digits := (isRun_padded 2 n).2
  rw [both] at digits
  exact ⟨a, b, both, isScriptDigit_of_isDigit (digits a List.mem_cons_self),
    isScriptDigit_of_isDigit (digits b (List.mem_cons_of_mem a List.mem_cons_self))⟩

section Zone
variable {offset : Int}

theorem zoneSpelled_zoneChars (day : offset.natAbs < 86400) :
    ZoneSpelled (some (zoneOf offset)) (zoneChars offset) := by
  have hours : IsPair (padded 2 ((offset.natAbs + 30) / 60 / 60)) := isPair_padded (by omega)
  have minutes : IsPair (padded 2 ((offset.natAbs + 30) / 60 % 60)) := isPair_padded (by omega)
  have colon : SeparatorSpelled [':'] [':'] := .inr ⟨':', List.mem_singleton_self ':', rfl⟩
  unfold zoneOf zoneChars
  by_cases west : offset < 0
  · rw [decide_eq_true west, if_pos west]
    exact .minutes (.inr rfl) hours colon minutes
  · rw [decide_eq_false west, if_neg west]
    exact .minutes (.inl rfl) hours colon minutes

theorem inRange_zoneOf (day : offset.natAbs < 86400) (whole : offset % 60 = 0) : (zoneOf offset).InRange := by
  refine ⟨isRun_padded 2 _, (isRun_padded 2 _).2, ?_, ?_⟩
  · rw [zoneOf, value_padded]
    omega
  · rw [zoneOf, value_padded]
    omega

theorem ahead_zoneOf (whole : offset % 60 = 0) : (zoneOf offset).ahead = offset := by
  simp only [WrittenZone.ahead, zoneOf, value_padded, decide_eq_true_eq]
  split <;> omega

end Zone

theorem fractionSpelled_fractionChars {complete : Prop} (whole : complete) {nanos : Nat} (bound : nanos < tenPow 9) :
    FractionSpelled complete (fractionDigits nanos) (fractionChars nanos) := by
  by_cases zero : nanos = 0
  · rw [(fractionDigits_eq_nil_iff bound).mpr zero, fractionChars, if_pos zero]
    exact .none
  · rw [fractionChars, if_neg zero, ← fractionDigits]
    exact .digits whole (.inl rfl) (mt (fractionDigits_eq_nil_iff bound).mp zero) (length_fractionDigits bound)
      fun c mem => isScriptDigit_of_isDigit (isDigit_of_mem_fractionDigits mem)

theorem exists_fields_tailChars {t : Timestamp} (part : t.nanos < tenPow 9) :
    ∃ fields, FieldsSpelled separators t.laterFields fields ∧
      t.tailChars = fields ++ (fractionChars t.nanos ++ zoneChars t.offset) := by
  have clock := t.clock_lt
  have minus : SeparatorSpelled ['-'] ['-'] := .inr ⟨'-', List.mem_singleton_self '-', rfl⟩
  have letter : SeparatorSpelled ['T', ' '] ['T'] := .inr ⟨'T', List.mem_cons_self, rfl⟩
  have colon : SeparatorSpelled [':'] [':'] := .inr ⟨':', List.mem_singleton_self ':', rfl⟩
  have hour : IsPair (padded 2 (t.clock / 3600)) := isPair_padded (by omega)
  have minute : IsPair (padded 2 (t.clock / 60 % 60)) := isPair_padded (by omega)
  have second : IsPair (padded 2 (t.clock % 60)) := isPair_padded (by omega)
  refine ⟨_, .field minus (isPair_padded t.month_lt) <| .field minus (isPair_padded t.day_lt) <|
    .field letter hour <| .field colon minute <| .field colon second .none, ?_⟩
  simp only [tailChars, Nat.div_eq_of_lt part, Nat.mod_eq_of_lt part, Nat.add_zero, List.append_assoc, List.cons_append,
    List.nil_append]

theorem lt_tenPow_four_iff (n : Nat) : n < tenPow 4 ↔ n ≤ 9999 := by
  have power : tenPow 4 = 10000 := rfl
  omega

theorem exists_sign_yearChars {year : Int} (high : year ≤ 9999) :
    ∃ sign, SignSpelled (year < 0) sign ∧ yearChars year = sign ++ padded 4 year.natAbs := by
  by_cases negative : year < 0
  · refine ⟨['-'], ?_, by rw [yearChars, if_pos negative]⟩
    rw [decide_eq_true negative]
    exact .minus
  · refine ⟨[], ?_, by rw [yearChars, if_neg negative, if_neg (by omega)]⟩
    rw [decide_eq_false negative]
    exact .none

theorem exists_spelling_toChars {t : Timestamp} (part : t.nanos < tenPow 9) (day : t.offset.natAbs < 86400)
    (low : -9999 ≤ t.localDay.year) (high : t.localDay.year ≤ 9999) : ∃ s : Spelling t.written, s.chars = t.toChars := by
  have short : t.localDay.year.natAbs < tenPow 4 := (lt_tenPow_four_iff _).mpr (by omega)
  obtain ⟨sign, signed, front⟩ := exists_sign_yearChars high
  obtain ⟨fields, spelled, behind⟩ := exists_fields_tailChars part
  refine ⟨⟨sign, fields, fractionChars t.nanos, 0, zoneChars t.offset, signed, length_padded (by decide) short,
    fun c mem => isScriptDigit_of_isDigit ((isRun_padded 4 _).2 c mem), spelled,
    fractionSpelled_fractionChars rfl part, zoneSpelled_zoneChars day⟩, ?_⟩
  simp only [Spelling.chars, Spelling.body, Spelling.ending, toChars_eq, front, behind, written, List.append_assoc,
    List.replicate_zero, List.nil_append]

/-! ### What is shown is in range -/

theorem date_written (t : Timestamp) : t.written.date = t.localDay := by
  have year : (if t.localDay.year < 0 then -(t.localDay.year.natAbs : Int) else t.localDay.year.natAbs) =
      t.localDay.year := by
    split <;> omega
  simp only [Written.date, Written.field, written, laterFields, value_padded, List.map_cons, decide_eq_true_eq, year]
  rfl

theorem clock_written (t : Timestamp) : t.written.clock = t.clock := by
  simp only [Written.clock, Written.field, written, laterFields, value_padded, List.map_cons, List.getD_cons_succ,
    List.getD_cons_zero]
  omega

theorem shows_written {t : Timestamp} (part : t.nanos < tenPow 9) : t.written.Shows t :=
  ⟨t.date_written.symm, t.clock_written.symm, (value_fractionDigits part).symm⟩

theorem inRange_written (t : Timestamp) : t.written.InRange := by
  have clock := t.clock_lt
  refine ⟨isRun_padded 4 _, ?_, fun c => isDigit_of_mem_fractionDigits, t.date_written ▸ t.localDay_valid, ?_, ?_, ?_⟩
  · simp [written, laterFields, isRun_padded]
  · change Digits.value (padded 2 (t.clock / 3600)) ≤ 23
    rw [value_padded]
    omega
  · change Digits.value (padded 2 (t.clock / 60 % 60)) ≤ 59
    rw [value_padded]
    omega
  · change Digits.value (padded 2 (t.clock % 60)) ≤ 59
    rw [value_padded]
    omega

theorem offset?_written {t : Timestamp} (day : t.offset.natAbs < 86400) (whole : t.offset % 60 = 0) :
    t.written.offset? = some t.offset := by
  have minutes : IsPair (padded 2 ((t.offset.natAbs + 30) / 60 % 60)) := isPair_padded (by omega)
  have read := (WrittenZone.offset?_of_inRange (inRange_zoneOf day whole) (.inr minutes)).1
  rwa [ahead_zoneOf whole] at read

section LongYears

/-- Neither a zone nor a fraction nor a space stands here. -/
structure Stuck (cs : List Char) : Prop where
  zone : zone? cs = none
  space : cs.dropWhile (· == ' ') = cs
  fraction : ∀ c ∈ cs.head?, c ≠ '.' ∧ c ≠ ','

theorem finish?_stuck {cs : List Char} (stuck : Stuck cs) (negative : Bool) (year fraction : List Char) :
    finish? negative year fraction cs = none := by
  rw [finish?, stuck.space, stuck.zone]
  rfl

theorem fraction?_stuck {cs : List Char} (stuck : Stuck cs) (negative : Bool) (year : List Char) :
    fraction? negative year cs = none := by
  unfold fraction?
  split
  · rename_i mark rest
    obtain ⟨point, comma⟩ := stuck.fraction mark rfl
    rw [if_neg (by simp [point, comma]), finish?_stuck stuck]
  · exact finish?_stuck stuck negative year []

theorem fields?_stuck {cs : List Char} (stuck : Stuck cs) {negative : Bool} {year allowed : List Char}
    {more : List (List Char)}
    (behind : ∀ field rest, twoDigits? (dropSeparator allowed cs) = some (field, rest) →
      fields? negative year more rest = none) : fields? negative year (allowed :: more) cs = none := by
  rw [fields?, finish?_stuck stuck]
  cases read : twoDigits? (dropSeparator allowed cs) with
  | none => rfl
  | some pair =>
    have none := behind pair.1 pair.2 read
    simp [none]

theorem stuck_digit {c : Char} (digit : c.isDigit = true) (rest : List Char) : Stuck (c :: rest) := by
  have other (d : Char) (apart : d.isDigit = false) : c ≠ d := by
    rintro rfl
    exact absurd digit (Bool.eq_false_iff.mp apart)
  refine ⟨?_, ?_, ?_⟩
  · unfold zone?
    split
    · rename_i none
      cases none
    · rename_i same
      exact absurd (List.cons.inj same).1 (other 'Z' rfl)
    · rename_i same
      exact absurd (List.cons.inj same).1 (other 'z' rfl)
    · rename_i same
      obtain ⟨rfl, rfl⟩ := List.cons.inj same
      exact if_neg (not_or.mpr ⟨other '+' rfl, other '-' rfl⟩)
  · exact List.dropWhile_cons_of_neg (by simpa using other ' ' rfl)
  · rintro d ⟨⟩
    exact ⟨other '.' rfl, other ',' rfl⟩

/-- A field that could be a zone, if the text did not go on. -/
theorem stuck_field {n : Nat} (bound : n < 100) {c : Char} (colon : c ≠ ':') (other : isScriptDigit c = false)
    (rest : List Char) : Stuck ('-' :: (padded 2 n ++ c :: rest)) := by
  refine ⟨?_, rfl, ?_⟩
  · have more : twoDigits? (dropSeparator [':'] (c :: rest)) = none := by
      rw [dropSeparator_of_not_mem (by simpa using colon)]
      cases rest with
      | nil => rfl
      | cons d rest => simp [twoDigits?, other]
    simp [zone?, twoDigits?_pair (isPair_padded bound), more]
  · rintro d ⟨⟩
    decide

theorem fields?_minus {cs : List Char} (stuck : Stuck ('-' :: cs)) (negative : Bool) (year : List Char)
    {fields : List (List Char)} (after : fields.head?.all (¬ '-' ∈ ·)) :
    fields? negative year fields ('-' :: cs) = none := by
  cases fields with
  | nil =>
    rw [fields?]
    exact fraction?_stuck stuck negative year
  | cons allowed more =>
    refine fields?_stuck stuck fun field rest read => ?_
    have minus : isScriptDigit '-' = false := by decide
    rw [dropSeparator_of_not_mem (by simpa using after), twoDigits?_of_head (by simpa using minus)] at read
    cases read

variable {t : Timestamp}

/-- Once the fields have begun, what is written behind the year can no longer be read. -/
theorem fields?_tailChars_late (negative : Bool) (year : List Char) {fields : List (List Char)}
    (late : fields <:+ separators.tail) : fields? negative year fields t.tailChars = none := by
  have month : Stuck t.tailChars := stuck_field t.month_lt (by decide) (by decide) _
  have either : fields = separators.tail ∨ fields.head?.all (¬ '-' ∈ ·) := by
    simp only [separators, List.tail_cons, List.suffix_cons_iff, List.suffix_nil] at late ⊢
    rcases late with rfl | rfl | rfl | rfl | rfl <;> simp
  rcases either with rfl | after
  · refine fields?_stuck month fun field rest read => ?_
    rw [tailChars, dropSeparator_of_mem (List.mem_singleton_self '-'), twoDigits?_pair (isPair_padded t.month_lt)] at read
    obtain ⟨rfl, rfl⟩ := Prod.mk.inj (Option.some.inj read)
    exact fields?_minus (stuck_field t.day_lt (by decide) (by decide) _) negative year (by decide)
  · exact fields?_minus month negative year after

/-- More than four digits of a year: each reading takes some of them for fields, and gets stuck. -/
theorem fields?_digits (negative : Bool) (year : List Char) {fields : List (List Char)}
    (allowed : fields <:+ separators) {digits : List Char} (present : digits ≠ [])
    (all : ∀ c ∈ digits, c.isDigit = true) :
    fields? negative year fields (digits ++ t.tailChars) = none := by
  induction fields generalizing digits with
  | nil =>
    obtain ⟨c, digits, rfl⟩ := List.exists_cons_of_ne_nil present
    exact fraction?_stuck (stuck_digit (all c List.mem_cons_self) _) negative year
  | cons first more ih =>
    obtain ⟨c, digits, rfl⟩ := List.exists_cons_of_ne_nil present
    have digit := all c List.mem_cons_self
    have later : more <:+ separators.tail := by
      simp only [separators, List.tail_cons, List.suffix_cons_iff, List.suffix_nil] at allowed ⊢
      rcases allowed with h | h | h | h | h | h <;> cases h <;> simp
    rw [List.cons_append]
    refine fields?_stuck (stuck_digit digit _) fun field rest read => ?_
    have kept : dropSeparator first (c :: (digits ++ t.tailChars)) = c :: (digits ++ t.tailChars) := by
      refine dropSeparator_of_not_mem (fun mark => ?_) _
      have apart : ∀ marks ∈ separators, ∀ mark ∈ marks, mark.isDigit = false := by simp [separators]
      rw [apart first (allowed.subset List.mem_cons_self) c mark] at digit
      cases digit
    rw [kept] at read
    cases digits with
    | nil =>
      have minus : isScriptDigit '-' = false := by decide
      simp [twoDigits?, tailChars, minus] at read
    | cons d digits =>
      have second := all d (List.mem_cons_of_mem c List.mem_cons_self)
      have both : twoDigits? (c :: d :: (digits ++ t.tailChars)) = some ([c, d], digits ++ t.tailChars) := by
        simp [twoDigits?, isScriptDigit_of_isDigit, digit, second]
      rw [List.cons_append, both] at read
      obtain ⟨rfl, rfl⟩ := Prod.mk.inj (Option.some.inj read)
      by_cases none : digits = []
      · rw [none]
        exact fields?_tailChars_late negative year later
      · refine ih (later.trans (List.tail_suffix _)) none fun e mem => ?_
        exact all e (List.mem_cons_of_mem c (List.mem_cons_of_mem d mem))

theorem written?_toChars_long (t : Timestamp) (long : 9999 < t.localDay.year.natAbs) :
    written? t.toChars = none := by
  have length : 4 < (padded 4 t.localDay.year.natAbs).length := by
    have many := mt (Nat.length_toDigits_le_iff (b := 10) (k := 4) (by decide) (by decide)).mp
      (mt (lt_tenPow_four_iff t.localDay.year.natAbs).mp (by omega))
    rw [padded, List.length_append]
    omega
  have digits := (isRun_padded 4 t.localDay.year.natAbs).2
  have read (negative : Bool) : year? negative (padded 4 t.localDay.year.natAbs ++ t.tailChars) = none := by
    have behind : (padded 4 t.localDay.year.natAbs ++ t.tailChars).drop 4 =
        (padded 4 t.localDay.year.natAbs).drop 4 ++ t.tailChars :=
      List.drop_append_of_le_length (by omega)
    unfold year?
    dsimp only
    split
    · rw [behind]
      refine fields?_digits negative _ List.suffix_rfl (fun none => ?_) fun c mem => ?_
      · have short := congrArg List.length none
        rw [List.length_drop, List.length_nil] at short
        omega
      · exact digits c (List.mem_of_mem_drop mem)
    · rfl
  rw [toChars_eq, yearChars]
  split
  · exact read true
  · rw [if_pos (by omega)]
    exact read false

end LongYears

theorem all_padded (width n : Nat) : (padded width n).all (! isBlank ·) = true := by
  refine List.all_eq_true.mpr fun c mem => ?_
  rw [isBlank_of_isDigit ((isRun_padded width n).2 c mem)]
  rfl

theorem all_fractionChars (n : Nat) : (fractionChars n).all (! isBlank ·) = true := by
  unfold fractionChars
  split
  · rfl
  · have point : isBlank '.' = false := by decide
    rw [List.all_cons, point, ← fractionDigits, Bool.not_false, Bool.true_and, List.all_eq_true]
    intro c mem
    rw [isBlank_of_isDigit (isDigit_of_mem_fractionDigits mem)]
    rfl

theorem trimBlanks_toChars (t : Timestamp) : trimBlanks t.toChars = t.toChars := by
  have marks : isBlank '-' = false ∧ isBlank '+' = false ∧ isBlank 'T' = false ∧ isBlank ':' = false := by decide
  have year : (yearChars t.localDay.year).all (! isBlank ·) = true := by
    unfold yearChars
    rw [List.all_append, all_padded]
    split
    · simp [marks]
    · split <;> simp [marks]
  have all : t.toChars.all (! isBlank ·) = true := by
    simp only [toChars_eq, tailChars, zoneChars, List.all_append, List.all_cons, year, all_padded,
      all_fractionChars, marks, Bool.not_false, Bool.and_true]
    split <;> simp [marks]
  exact trimBlanks_of_sound fun c mem => by simpa using List.all_eq_true.mp all c mem

theorem offset?_whole {w : Written} {offset : Int} (read : w.offset? = some offset) : offset % 60 = 0 := by
  unfold Written.offset? at read
  cases written : w.zone with
  | none =>
    rw [written] at read
    cases read
    rfl
  | some z =>
    rw [written] at read
    obtain ⟨_, minutes, _, rfl⟩ := WrittenZone.offset?_eq_some_iff.mp read
    split <;> omega

theorem ofText?_toText_of_offset {t : Timestamp} (part : t.nanos < tenPow 9) (day : t.offset.natAbs < 86400)
    (whole : t.offset % 60 = 0) :
    ofText? t.toText = if -9999 ≤ t.localDay.year ∧ t.localDay.year ≤ 9999 then some t else none := by
  have trimmed : trimBlanks t.toText.toList = t.toChars := by
    rw [toText, String.toList_ofList, trimBlanks_toChars]
  split
  · rename_i four
    obtain ⟨s, spelled⟩ := exists_spelling_toChars part day four.1 four.2
    have apart : ¬ s.Ambiguous := fun ambiguous => absurd ambiguous.1 (by simp [written, laterFields])
    have read := written?_chars s apart
    rw [spelled, ← trimmed] at read
    exact ofText?_eq_some_iff.mpr
      ⟨t.written, read, ⟨s, spelled.trans trimmed.symm⟩, t.inRange_written, offset?_written day whole, day, shows_written part⟩
  · rename_i long
    rw [ofText?, trimmed, written?_toChars_long t (by omega)]
    rfl

/-- The timestamps that a text or a number can give. -/
def Given (t : Timestamp) : Prop :=
  (∃ text, ofText? text = some t) ∨ ∃ seconds, ofSeconds? seconds = some t

/-- Neither a text nor a number gives an offset with seconds or a leap second. -/
theorem dial_of_given {t : Timestamp} (given : t.Given) :
    t.nanos < tenPow 9 ∧ t.offset.natAbs < 86400 ∧ t.offset % 60 = 0 := by
  rcases given with ⟨text, read⟩ | ⟨seconds, read⟩
  · obtain ⟨w, _, ⟨s, _⟩, range, zone, near, shown⟩ := ofText?_eq_some_iff.mp read
    exact ⟨shown.2.2 ▸ range.nanos_lt (length_fraction s.fraction_spelled), near, offset?_whole zone⟩
  · obtain ⟨rfl, _⟩ := ofSeconds?_sound read
    exact ⟨(nanos_lt_iff _).mpr rfl, Nat.succ_pos 86399, rfl⟩

/-- A timestamp that has been read or computed comes back from its text, instant and offset alike, if its year
where it is shown has four digits; otherwise its text is not that of a timestamp. -/
theorem ofText?_toText {t : Timestamp} (given : t.Given) :
    ofText? t.toText = if -9999 ≤ t.localDay.year ∧ t.localDay.year ≤ 9999 then some t else none := by
  obtain ⟨part, day, whole⟩ := dial_of_given given
  exact ofText?_toText_of_offset part day whole

/-- A year before 0 with an offset of half an hour to the west, and the first year of five digits. -/
theorem ofText?_toText_extremes :
    (⟨-63549271800500000000, (-1800 : Int)⟩ : Timestamp).Given ∧
      (⟨-63549271800500000000, (-1800 : Int)⟩ : Timestamp).toText = "-0044-03-15T23:59:59.5-00:30" ∧
      ofText? (⟨-63549271800500000000, (-1800 : Int)⟩ : Timestamp).toText = some ⟨-63549271800500000000, (-1800 : Int)⟩ ∧
      (⟨253402300800000000000, 0⟩ : Timestamp).Given ∧
      (⟨253402300800000000000, 0⟩ : Timestamp).toText = "+10000-01-01T00:00:00+00:00" ∧
      ofText? (⟨253402300800000000000, 0⟩ : Timestamp).toText = none := by
  have read : ofText? "-0044-03-15 2359:59,500-0030" = some ⟨-63549271800500000000, (-1800 : Int)⟩ := by decide +kernel
  have computed : ofSeconds? ⟨2534023008, -2⟩ = some ⟨253402300800000000000, 0⟩ := by decide +kernel
  refine ⟨Or.inl ⟨_, read⟩, by decide +kernel, ?_, Or.inr ⟨_, computed⟩, by decide +kernel, ?_⟩
  · exact (ofText?_toText (Or.inl ⟨_, read⟩)).trans (if_pos (by decide +kernel))
  · exact (ofText?_toText (Or.inr ⟨_, computed⟩)).trans (if_neg (by decide +kernel))

end TemplateExpr.Timestamp
