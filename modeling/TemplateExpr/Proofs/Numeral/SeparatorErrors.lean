import TemplateExpr.Proofs.Numeral.SeparatorScan
/-!
Misplaced separators are located: in a text that would be a numeral without its separators the first one that is not
between two digits of one run is where reading fails, or the point before it if nothing but a sign is before the point.
-/
namespace TemplateExpr.Numeral

open Source Scan

section Reported

/-- Where a separator behind these characters is reported: at its own place, counted from 1, or at the point that it
follows if there are no digits before the point. -/
def reportedAt (front : List Char) : Nat :=
  if front.getLast? = some '.' && !front.any Char.isDigit then front.length else front.length + 1

theorem point_notMem_sign (sign : Sign) : '.' ∉ sign.chars := by
  cases sign <;> decide

theorem body_start (m : Mantissa) (e : Option Exponent) :
    (∃ d rest, (Body.decimal m e).chars = d :: rest ∧ d.isDigit = true) ∨
      ∃ d rest, (Body.decimal m e).chars = '.' :: d :: rest ∧ d.isDigit = true := by
  cases m with
  | whole digits run =>
    obtain ⟨d, rest, rfl, digit⟩ := run_head run
    exact Or.inl ⟨d, _, rfl, Digits.isDigitOf_ten d ▸ digit⟩
  | point digits places run tail =>
    obtain ⟨d, rest, rfl, digit⟩ := run_head run
    exact Or.inl ⟨d, _, rfl, Digits.isDigitOf_ten d ▸ digit⟩
  | bare places run =>
    obtain ⟨d, rest, rfl, digit⟩ := run_head run
    exact Or.inr ⟨d, _, rfl, Digits.isDigitOf_ten d ▸ digit⟩

theorem front_of_point {sign : Sign} {m : Mantissa} {e : Option Exponent} {front back : List Char}
    (chars : Literal.chars ⟨sign, .decimal m e⟩ = front ++ '.' :: back) (noDigits : ∀ c ∈ front, c.isDigit = false) :
    front = sign.chars := by
  have noDigit : ∀ {c}, c ∈ front → ¬ c.isDigit = true := by
    intro c mem digit
    rw [noDigits c mem] at digit
    cases digit
  rcases List.append_eq_append_iff.mp chars with ⟨between, rfl, body⟩ | ⟨between, signChars, body⟩
  · cases between with
    | nil => exact List.append_nil _
    | cons c between =>
      rcases body_start m e with ⟨d, rest, same, digit⟩ | ⟨d, rest, same, digit⟩
      · obtain rfl := (List.cons.inj (same.symm.trans body)).1
        exact absurd digit (noDigit (by simp))
      · obtain ⟨rfl, later⟩ := List.cons.inj (same.symm.trans body)
        cases between with
        | nil =>
          cases later
          cases digit
        | cons c between =>
          obtain rfl := (List.cons.inj later).1
          exact absurd digit (noDigit (by simp))
  · cases between with
    | nil => simpa using signChars.symm
    | cons c between =>
      obtain rfl := (List.cons.inj body).1
      exact absurd (by simp [signChars]) (point_notMem_sign sign)

theorem decimal_of_point {l : Literal} (point : '.' ∈ l.chars) : ∃ m e, l.body = .decimal m e := by
  obtain ⟨sign, body⟩ := l
  cases body with
  | decimal m e => exact ⟨m, e, rfl⟩
  | marked mark base digits marks run =>
    rcases List.mem_append.mp point with point | point
    · exact absurd point (point_notMem_sign sign)
    · rcases List.mem_cons.mp point with zero | point
      · cases zero
      · rcases List.mem_cons.mp point with rfl | point
        · cases marks
        · rcases mem_run run '.' point with digit | line
          · cases digit
          · cases line

theorem front_of_firstMisplaced {l : Literal} {front back : List Char}
    (chars : l.chars = withoutSeparators (front ++ '_' :: back)) (first : l.FirstMisplaced front back)
    (point : front.getLast? = some '.') (noDigits : ∀ c ∈ front, c.isDigit = false) :
    ∃ sign : Sign, front = sign.chars ++ ['.'] := by
  obtain ⟨front, rfl⟩ := List.getLast?_eq_some_iff.mp point
  have within : '.' ∈ l.chars := by
    rw [chars]
    exact List.mem_filter.mpr ⟨by simp, rfl⟩
  obtain ⟨m, e, decimal⟩ := decimal_of_point within
  obtain ⟨sign, body⟩ := l
  subst decimal
  -- an earlier separator would have a digit before it
  have joined : '_' ∉ front := by
    intro mem
    obtain ⟨front', back', rfl⟩ := List.append_of_mem mem
    have between := first.2 front' (back' ++ ['.']) (by simp)
    have digit := ((betweenDigits_iff (by simpa using chars)).mp between).1
    cases last : front'.getLast? with
    | none =>
      rw [last] at digit
      cases digit
    | some c =>
      have noDigit := noDigits c (by simp [List.mem_of_getLast? last])
      rw [last, Option.any_some, Literal.base, Digits.isDigitOf_ten, noDigit] at digit
      cases digit
  have bare : withoutSeparators front = front :=
    List.filter_eq_self.mpr fun c mem => bne_iff_ne.mpr fun line => joined (line ▸ mem)
  have split : Literal.chars ⟨sign, .decimal m e⟩ = front ++ '.' :: withoutSeparators back := by
    rw [chars, List.append_assoc, withoutSeparators_append, bare]
    rfl
  have signChars := front_of_point split fun c mem => noDigits c (List.mem_append_left _ mem)
  exact ⟨sign, congrArg (· ++ ['.']) signChars⟩

theorem reportedAt_point (sign : Sign) : reportedAt (sign.chars ++ ['.']) = sign.chars.length + 1 := by
  cases sign <;> rfl

theorem firstMisplaced_of_point {l : Literal} {sign : Sign} {back : List Char}
    (chars : l.chars = withoutSeparators (sign.chars ++ ['.'] ++ '_' :: back)) :
    l.FirstMisplaced (sign.chars ++ ['.']) back := by
  constructor
  · intro between
    have digit := ((betweenDigits_iff chars).mp between).1
    simp at digit
    cases digit
  · intro front back' same
    have line : '_' ∈ sign.chars ++ ['.'] := by simp [same]
    exact absurd line (by cases sign <;> decide)

theorem scan_point (limit position : Nat) (sign : Sign) (rest : List Char) :
    ∃ fault t, scanAll (before limit position (sign.chars ++ '.' :: '_' :: rest)) =
      .error (.badNumeral (position + sign.chars.length) fault) t := by
  cases sign <;> exact ⟨_, _, rfl⟩

end Reported

theorem ofText_of_error {text : String} {s t : Source} {e : Error}
    (opened : Source.ofText text.utf8ByteSize text = .ok s) (failed : scanAll s = .error e t) :
    ofText text = .error e := by
  unfold ofText
  rw [opened]
  simp [Bind.bind, Except.bind, failed, throw, throwThe, MonadExceptOf.throw]

theorem ofText_separated {text : String} {l : Literal} {d : Decimal} (value : Yields l d)
    (chars : l.chars = withoutSeparators text.toList) :
    (l.SeparatorsFit text.toList ∧ ∃ n, ofText text = .ok n ∧ n.value = d ∧ n.plain = l.plain) ∨
      ∃ front back fault, text.toList = front ++ '_' :: back ∧ l.FirstMisplaced front back ∧
        ofText text = .error (.badNumeral (reportedAt front) fault) := by
  have sound : ∀ c ∈ text.toList, c.toNat ≠ 0xFFFF := by
    intro c mem
    by_cases line : c = '_'
    · rw [line]
      decide
    · have ascii := literal_ascii l c (chars ▸ List.mem_filter.mpr ⟨mem, by simpa using line⟩)
      omega
  have opened := ofText_before (Nat.le_max_left text.utf8ByteSize minLimit) sound
  by_cases point : ∃ (sign : Sign) (rest : List Char), text.toList = sign.chars ++ '.' :: '_' :: rest
  · obtain ⟨sign, rest, split⟩ := point
    have split' : text.toList = sign.chars ++ ['.'] ++ '_' :: rest := by simpa using split
    rw [split] at opened
    obtain ⟨fault, t, failed⟩ := scan_point (max text.utf8ByteSize minLimit) 1 sign rest
    refine Or.inr ⟨_, rest, fault, split', firstMisplaced_of_point (split' ▸ chars), ?_⟩
    rw [reportedAt_point, Nat.add_comm]
    exact ofText_of_error opened failed
  · have seen : ∀ (sign : Sign) (rest : List Char), text.toList ≠ sign.chars ++ '.' :: '_' :: rest :=
      fun sign rest split => point ⟨sign, rest, split⟩
    rcases locates_scan value chars seen (max text.utf8ByteSize minLimit) 1 with
      ⟨n, w, rest, _, read, fit, rfl, same, plain⟩ | ⟨i, fault, t, found, failed⟩
    · have scanned : scanAll (before (max text.utf8ByteSize minLimit) 1 text.toList) = .ok n _ := run_bind read
      have done := ofText_eq_ok_iff.mpr ⟨_, _, opened, scanned⟩
      exact Or.inl ⟨separatorsFit_of_misplaced? chars fit, n, done, same, plain⟩
    · obtain ⟨front, back, split, place, first⟩ := firstMisplaced_of_misplaced? chars found
      refine Or.inr ⟨front, back, fault, split, first, ?_⟩
      have own : reportedAt front = 1 + i := by
        rw [reportedAt, if_neg, place, Nat.add_comm]
        intro point
        obtain ⟨last, noDigits⟩ : front.getLast? = some '.' ∧ ∀ c ∈ front, c.isDigit = false := by simpa using point
        obtain ⟨sign, rfl⟩ := front_of_firstMisplaced (split ▸ chars) first last noDigits
        exact seen sign back (by simpa using split)
      rw [own]
      exact ofText_of_error opened (run_bind_error failed)

/-- Misplaced separators are located. A text that is a numeral without its separators has a literal that tells its
runs. If each separator stands between two digits of one run, the text is the same number, and as plain. If not, it is
refused at the first that does not, or at the point before it if that point has no digits before it. -/
theorem separators_located {text : String} {bare : Numeral}
    (accepted : ofText (String.ofList (withoutSeparators text.toList)) = .ok bare) :
    ∃ l : Literal, l.chars = withoutSeparators text.toList ∧
      (l.SeparatorsFit text.toList →
        ∃ n, ofText text = .ok n ∧ n.value = bare.value ∧ n.plain = bare.plain) ∧
      (¬ l.SeparatorsFit text.toList →
        ∃ front back fault, text.toList = front ++ '_' :: back ∧ l.FirstMisplaced front back ∧
          ofText text = .error (.badNumeral (reportedAt front) fault)) := by
  obtain ⟨l, chars, range, spells⟩ := literal_of_ofText accepted
  obtain ⟨d, value⟩ := (inRange_iff l).mp range
  have same : bare = l.numeral d := spells_unique spells (spells_numeral value)
  rw [String.toList_ofList] at chars
  rw [same]
  refine ⟨l, chars, ?_⟩
  rcases ofText_separated value chars with ⟨fit, read⟩ | ⟨front, back, fault, split, first, failed⟩
  · exact ⟨fun _ => read, fun bad => absurd fit bad⟩
  · exact ⟨fun fit => absurd (fit front back split) first.1, fun _ => ⟨front, back, fault, split, first, failed⟩⟩

theorem separators_located_point : ∃ fault, ofText "._5" = .error (.badNumeral 1 fault) := by
  have literal : Literal.chars ⟨.none, .decimal (.bare ['5'] (.last rfl)) none⟩ = ".5".toList := rfl
  have fits : ExponentFits none := by
    rintro e ⟨⟩
  have accepted : ofText (String.ofList (withoutSeparators "._5".toList)) = .ok _ :=
    ofText_of_yields (d := ⟨5, 1⟩) literal ⟨fits, by decide +kernel, by decide +kernel⟩
  obtain ⟨l, chars, _, refused⟩ := separators_located accepted
  have bad : ¬ l.SeparatorsFit "._5".toList := by
    intro fit
    have between := (betweenDigits_iff chars).mp (fit ['.'] ['5'] rfl)
    cases between.1
  obtain ⟨front, back, fault, split, _, failed⟩ := refused bad
  have place : front = ['.'] := by
    have split : ['.', '_', '5'] = front ++ '_' :: back := split
    rcases front with _ | ⟨c, _ | ⟨c', front⟩⟩
    · cases split
    · cases split
      rfl
    · have line : '_' ∈ ['5'] := by simp [List.cons.inj (List.cons.inj split).2]
      simp at line
  have reported : reportedAt ['.'] = 1 := reportedAt_point .none
  rw [place, reported] at failed
  exact ⟨fault, failed⟩

end TemplateExpr.Numeral
