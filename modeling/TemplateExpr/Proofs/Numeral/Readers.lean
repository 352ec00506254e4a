import TemplateExpr.Proofs.Decimal.TextRoundTrip
/-!
The two readers of numbers in decimal digits. One takes the text apart at the exponent mark and the point, the
other scans it character by character; both accept exactly the literals of one grammar, and make the same decimal
of each. Only the scanner knows separators and marked bases, and separators change nothing.
-/
namespace TemplateExpr.Numeral

section Parts

theorem spelled_of_isRun {cs : List Char} (run : Digits.IsRun cs) : spelled 10 cs = Digits.value cs := by
  rw [← value_withoutSeparators, withoutSeparators_of_digits run.2]

theorem signed?_sound {bits : Nat} {cs : List Char} {n : Int} (read : Digits.signed? bits cs = some n) :
    ∃ (sign : Sign) (digits : List Char), cs = sign.chars ++ digits ∧ Digits.IsRun digits ∧
      n = sign.apply (Digits.value digits) ∧ FitsSigned bits n := by
  unfold Digits.signed? at read
  obtain ⟨number, fits⟩ := Option.filter_eq_some_iff.mp read
  have fits := of_decide_eq_true fits
  split at number
  · obtain ⟨m, digits, rfl⟩ := Option.map_eq_some_iff.mp number
    obtain ⟨run, rfl⟩ := Digits.isRun_of_run? digits
    exact ⟨.plus, _, rfl, run, rfl, fits⟩
  · obtain ⟨m, digits, rfl⟩ := Option.map_eq_some_iff.mp number
    obtain ⟨run, rfl⟩ := Digits.isRun_of_run? digits
    exact ⟨.minus, _, rfl, run, rfl, fits⟩
  · obtain ⟨m, digits, rfl⟩ := Option.map_eq_some_iff.mp number
    obtain ⟨run, rfl⟩ := Digits.isRun_of_run? digits
    exact ⟨.none, _, rfl, run, rfl, fits⟩

theorem power?_sound {cs : List Char} {power : Int} (mark : ∀ c ∈ cs.head?, Decimal.isExponentMark c = true)
    (read : Decimal.power? cs = some power) :
    ∃ e : Option Exponent, cs = exponentChars e ∧ exponentPower e = power ∧ FitsSigned 64 power ∧
      ∀ x ∈ e, ∀ c ∈ x.digits, c.isDigit = true := by
  cases cs with
  | nil =>
    cases read
    refine ⟨none, rfl, rfl, by decide, ?_⟩
    rintro x ⟨⟩
  | cons c written =>
    obtain ⟨sign, digits, rfl, run, value, fits⟩ := signed?_sound read
    have isMark : c = 'e' ∨ c = 'E' := by simpa [Decimal.isExponentMark] using mark c rfl
    refine ⟨some ⟨c, sign, digits, isMark, run_of_isRun run⟩, rfl, ?_, fits, ?_⟩
    · rw [value, ← spelled_of_isRun run]
      rfl
    · rintro x ⟨⟩
      exact run.2

/-- The least integer of 64 bits has digits that are too large without their sign; as a power it would be too
large for the scale. -/
theorem exponentFits_of_scale {e : Option Exponent} {size : Nat} (power : FitsSigned 64 (exponentPower e))
    (scale : FitsSigned 64 (size - exponentPower e)) : ExponentFits e := by
  intro x mem
  cases mem
  rw [Decimal.fitsSigned_64_iff] at power scale ⊢
  simp only [exponentPower, Exponent.power, Sign.apply] at power scale
  split at power <;> split at scale <;> omega

theorem ofMantissa?_sound {negative : Bool} {cs : List Char} {power : Int} {d : Decimal}
    (read : Decimal.ofMantissa? negative cs power = some d) :
    ∃ m : Mantissa, cs = m.chars ∧ (∀ c ∈ m.digits ++ m.places, c.isDigit = true) ∧
      Decimal.ofDigits? negative m.digits m.places power = some d := by
  unfold Decimal.ofMantissa? at read
  extract_lets whole fraction at read
  split at read
  · rename_i run
    obtain ⟨present, digits⟩ := run
    have split := List.takeWhile_append_dropWhile (p := (· != '.')) (l := cs)
    cases behind : cs.dropWhile (· != '.') with
    | nil =>
      -- without a point all of the text is the run
      have none : fraction = [] := congrArg (List.drop 1) behind
      rw [none, List.append_nil] at present digits
      rw [behind, List.append_nil] at split
      rw [none] at read
      refine ⟨.whole whole (run_of_isRun ⟨present, digits⟩), split.symm.trans ?_, ?_, read⟩
      · exact (List.append_nil whole).symm
      · rwa [Mantissa.digits, Mantissa.places, List.append_nil]
    | cons c places =>
      have point : c = '.' := by
        have stops := List.head_dropWhile_not (· != '.') (l := cs) (by simp [behind])
        simpa [behind] using stops
      have tail : fraction = places := congrArg (List.drop 1) behind
      rw [behind, point] at split
      rw [tail] at present digits read
      have last : places = [] ∨ Run 10 places := by
        by_cases empty : places = []
        · exact Or.inl empty
        · exact Or.inr (run_of_isRun ⟨empty, fun c mem => digits c (List.mem_append_right _ mem)⟩)
      by_cases bare : whole = []
      · refine ⟨.bare places (last.resolve_left fun empty => present ?_), split.symm.trans ?_, ?_, ?_⟩
        · rw [bare, empty, List.append_nil]
        · exact congrArg (· ++ '.' :: places) bare
        · rwa [bare] at digits
        · rwa [bare] at read
      · have first := run_of_isRun ⟨bare, fun c mem => digits c (List.mem_append_left _ mem)⟩
        exact ⟨.point whole places first last, split.symm, digits, read⟩
  · cases read

theorem ofSigned?_sound {cs : List Char} {power : Int} {d : Decimal} (read : Decimal.ofSigned? cs power = some d) :
    ∃ (sign : Sign) (m : Mantissa), cs = sign.chars ++ m.chars ∧
      (∀ c ∈ m.digits ++ m.places, c.isDigit = true) ∧
        Decimal.ofDigits? (sign.chars = ['-']) m.digits m.places power = some d := by
  unfold Decimal.ofSigned? at read
  split at read
  · obtain ⟨m, rfl, digits, read⟩ := ofMantissa?_sound read
    exact ⟨.minus, m, rfl, digits, read⟩
  · obtain ⟨m, rfl, digits, read⟩ := ofMantissa?_sound read
    exact ⟨.plus, m, rfl, digits, read⟩
  · obtain ⟨m, rfl, digits, read⟩ := ofMantissa?_sound read
    exact ⟨.none, m, rfl, digits, read⟩

end Parts

theorem ofChars?_eq_some_iff {cs : List Char} {d : Decimal} :
    Decimal.ofChars? cs = some d ↔
      ∃ sign m e, Bare m e ∧ Literal.chars ⟨sign, .decimal m e⟩ = cs ∧ Yields ⟨sign, .decimal m e⟩ d := by
  constructor
  · intro read
    obtain ⟨power, last, first⟩ := Option.bind_eq_some_iff.mp read
    have split := List.takeWhile_append_dropWhile (p := (! Decimal.isExponentMark ·)) (l := cs)
    have mark : ∀ c ∈ (cs.dropWhile (! Decimal.isExponentMark ·)).head?, Decimal.isExponentMark c = true := by
      intro c head
      have stops := List.head?_dropWhile_not (! Decimal.isExponentMark ·) cs
      rw [head] at stops
      simpa using stops
    obtain ⟨e, chars, rfl, fits, exponent⟩ := power?_sound mark last
    obtain ⟨sign, m, front, digits, read⟩ := ofSigned?_sound first
    have bare : Bare m e := ⟨digits, exponent⟩
    refine ⟨sign, m, e, bare, ?_, ?_⟩
    · rw [Literal.chars, Body.chars, ← List.append_assoc, ← front, ← chars, split]
    · rw [← withoutSeparators_of_digits fun c mem => digits c (List.mem_append_left _ mem),
        ← withoutSeparators_of_digits fun c mem => digits c (List.mem_append_right _ mem)] at read
      obtain ⟨scale, value⟩ := ofDigits?_eq_some_iff.mp read
      exact ⟨exponentFits_of_scale fits scale, scale, value⟩
  · rintro ⟨sign, m, e, bare, rfl, value⟩
    exact ofChars?_bare bare value

section Separators

theorem withoutSeparators_idem (cs : List Char) :
    withoutSeparators (withoutSeparators cs) = withoutSeparators cs := by
  rw [withoutSeparators, withoutSeparators, List.filter_filter]
  simp

theorem spelled_withoutSeparators (base : Nat) (cs : List Char) :
    spelled base (withoutSeparators cs) = spelled base cs := by
  rw [spelled, withoutSeparators_idem, spelled]

theorem withoutSeparators_append (a b : List Char) :
    withoutSeparators (a ++ b) = withoutSeparators a ++ withoutSeparators b := List.filter_append ..

theorem run_withoutSeparators {cs : List Char} (run : Run 10 cs) : Run 10 (withoutSeparators cs) :=
  run_of_isRun (isRun_withoutSeparators run)

def Mantissa.unseparated : Mantissa → Mantissa
  | .whole digits run => .whole (withoutSeparators digits) (run_withoutSeparators run)
  | .point digits places run tail =>
    .point (withoutSeparators digits) (withoutSeparators places) (run_withoutSeparators run)
      (tail.imp (congrArg withoutSeparators) run_withoutSeparators)
  | .bare places run => .bare (withoutSeparators places) (run_withoutSeparators run)

def Exponent.unseparated (e : Exponent) : Exponent :=
  { e with digits := withoutSeparators e.digits, run := run_withoutSeparators e.run }

theorem digits_unseparated (m : Mantissa) : m.unseparated.digits = withoutSeparators m.digits := by
  cases m <;> rfl

theorem places_unseparated (m : Mantissa) : m.unseparated.places = withoutSeparators m.places := by
  cases m <;> rfl

theorem bare_unseparated (m : Mantissa) (e : Option Exponent) :
    Bare m.unseparated (e.map Exponent.unseparated) := by
  have digits {cs : List Char} (run : cs = [] ∨ Run 10 cs) : ∀ c ∈ withoutSeparators cs, c.isDigit = true := by
    rcases run with rfl | run
    · rintro c ⟨⟩
    · exact (isRun_withoutSeparators run).2
  constructor
  · rw [digits_unseparated, places_unseparated]
    intro c mem
    rcases List.mem_append.mp mem with before | behind
    · refine digits ?_ c before
      cases m with
      | whole _ run => exact Or.inr run
      | point _ _ run _ => exact Or.inr run
      | bare _ _ => exact Or.inl rfl
    · refine digits ?_ c behind
      cases m with
      | whole _ _ => exact Or.inl rfl
      | point _ _ _ tail => exact tail
      | bare _ run => exact Or.inr run
  · intro x mem
    obtain ⟨y, _, rfl⟩ := Option.map_eq_some_iff.mp mem
    exact digits (Or.inr y.run)

theorem withoutSeparators_cons {c : Char} (other : c ≠ '_') (cs : List Char) :
    withoutSeparators (c :: cs) = c :: withoutSeparators cs :=
  List.filter_cons_of_pos (bne_iff_ne.mpr other)

theorem withoutSeparators_sign (sign : Sign) : withoutSeparators sign.chars = sign.chars := by
  cases sign <;> rfl

theorem chars_unseparated (sign : Sign) (m : Mantissa) (e : Option Exponent) :
    Literal.chars ⟨sign, .decimal m.unseparated (e.map Exponent.unseparated)⟩ =
      withoutSeparators (Literal.chars ⟨sign, .decimal m e⟩) := by
  have mantissa : m.unseparated.chars = withoutSeparators m.chars := by
    cases m with
    | whole digits _ => exact (withoutSeparators_append digits []).symm
    | point digits places _ _ => exact (withoutSeparators_append digits ('.' :: places)).symm
    | bare _ _ => rfl
  have exponent : exponentChars (e.map Exponent.unseparated) = withoutSeparators (exponentChars e) := by
    cases e with
    | none => rfl
    | some e =>
      have mark : e.mark ≠ '_' := by
        rintro same
        rcases e.isMark with small | capital
        · rw [same] at small
          cases small
        · rw [same] at capital
          cases capital
      simp only [Option.map_some, exponentChars, Exponent.chars, Exponent.unseparated, List.cons_append,
        withoutSeparators_cons mark, withoutSeparators_append, withoutSeparators_sign]
  rw [Literal.chars, Literal.chars, Body.chars, Body.chars, mantissa, exponent, withoutSeparators_append,
    withoutSeparators_append, withoutSeparators_sign]

theorem yields_unseparated {sign : Sign} {m : Mantissa} {e : Option Exponent} {d : Decimal}
    (value : Yields ⟨sign, .decimal m e⟩ d) :
    Yields ⟨sign, .decimal m.unseparated (e.map Exponent.unseparated)⟩ d := by
  obtain ⟨fits, scale, result⟩ := value
  have size : m.unseparated.size = m.size := by
    rw [Mantissa.size, places_unseparated, withoutSeparators_idem, Mantissa.size]
  have power : exponentPower (e.map Exponent.unseparated) = exponentPower e := by
    cases e with
    | none => rfl
    | some e => exact congrArg (fun n : Nat => e.sign.apply n) (spelled_withoutSeparators 10 e.digits)
  have unscaled : Literal.unscaled sign m.unseparated = Literal.unscaled sign m := by
    rw [Literal.unscaled, digits_unseparated, places_unseparated, ← withoutSeparators_append,
      spelled_withoutSeparators, Literal.unscaled]
  refine ⟨fun x mem => ?_, ?_, ?_⟩
  · obtain ⟨y, present, rfl⟩ := Option.map_eq_some_iff.mp mem
    have same : spelled 10 y.unseparated.digits = spelled 10 y.digits := spelled_withoutSeparators 10 y.digits
    rw [same]
    exact fits y present
  · rwa [size, power]
  · rwa [size, power, unscaled]

end Separators

def MarksBase (cs : List Char) : Prop :=
  ∃ (sign : Sign) (mark : Char) (base : Nat) (rest : List Char),
    Marks mark base ∧ cs = sign.chars ++ '0' :: mark :: rest

theorem yields_of_ofText {text : String} {n : Numeral} (read : ofText text = .ok n) :
    ∃ l : Literal, l.chars = text.toList ∧ Yields l n.value := by
  obtain ⟨l, chars, range, spells⟩ := literal_of_ofText read
  obtain ⟨d, value⟩ := (inRange_iff l).mp range
  have same : n = l.numeral d := spells_unique spells (spells_numeral value)
  refine ⟨l, chars, ?_⟩
  rw [same]
  exact value

theorem scanned_of_split {text : String} {d : Decimal} (read : Decimal.ofText? text = some d) :
    ∃ n, ofText text = .ok n ∧ n.value = d := by
  obtain ⟨sign, m, e, _, chars, value⟩ := ofChars?_eq_some_iff.mp read
  exact ⟨_, ofText_of_yields chars value, rfl⟩

theorem split_of_scanned {text : String} (unmarked : ¬ MarksBase text.toList) {n : Numeral}
    (read : ofText text = .ok n) :
    Decimal.ofText? (String.ofList (withoutSeparators text.toList)) = some n.value := by
  obtain ⟨⟨sign, body⟩, chars, value⟩ := yields_of_ofText read
  cases body with
  | marked mark base digits marks run => exact absurd ⟨sign, mark, base, digits, marks, chars.symm⟩ unmarked
  | decimal m e =>
    rw [Decimal.ofText?, String.toList_ofList, ← chars, ← chars_unseparated]
    exact ofChars?_bare (bare_unseparated m e) (yields_unseparated value)

/-- What the one reader makes of a text the scanner makes of it too. What the scanner makes of a text without the
mark of a base the other reader makes of it once the separators are gone. So on texts with neither, the two are one
function, with the same limits for exponents. -/
theorem readers_agree (text : String) :
    (∀ d, Decimal.ofText? text = some d → ∃ n, ofText text = .ok n ∧ n.value = d) ∧
    (¬ MarksBase text.toList → ∀ n, ofText text = .ok n →
      Decimal.ofText? (String.ofList (withoutSeparators text.toList)) = some n.value) ∧
    (¬ MarksBase text.toList → '_' ∉ text.toList →
      Decimal.ofText? text = (ofText text).toOption.map Numeral.value) := by
  refine ⟨fun d => scanned_of_split, fun unmarked n => split_of_scanned unmarked, fun unmarked joined => ?_⟩
  have same : String.ofList (withoutSeparators text.toList) = text := by
    have kept : withoutSeparators text.toList = text.toList :=
      List.filter_eq_self.mpr fun c mem => bne_iff_ne.mpr fun line => joined (line ▸ mem)
    rw [kept, String.ofList_toList]
  cases scanned : ofText text with
  | ok n =>
    have read := split_of_scanned unmarked scanned
    rwa [same] at read
  | error fault =>
    cases read : Decimal.ofText? text with
    | none => rfl
    | some d =>
      obtain ⟨n, done, _⟩ := scanned_of_split read
      rw [scanned] at done
      cases done

end TemplateExpr.Numeral
