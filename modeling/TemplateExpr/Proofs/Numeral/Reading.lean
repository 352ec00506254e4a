import TemplateExpr.Proofs.Numeral.Parts
/-!
The scanner against the grammar. A literal in range is read where it stands, with the decimal that it yields,
and whatever the scanner reads is a literal in range.
-/
namespace TemplateExpr.Numeral

open Source Scan

def Yields (l : Literal) (d : Decimal) : Prop :=
  match l.body with
  | .marked _ base digits _ _ => d = Decimal.ofInt (l.sign.apply (spelled base digits))
  | .decimal mantissa e =>
    ExponentFits e ∧ FitsSigned 64 (mantissa.size - exponentPower e) ∧
      Decimal.checked (Literal.unscaled l.sign mantissa) (mantissa.size - exponentPower e) = .ok d

theorem inRange_iff (l : Literal) : l.InRange ↔ ∃ d, Yields l d := by
  obtain ⟨sign, body⟩ := l
  cases body with
  | marked mark base digits marks run => exact ⟨fun _ => ⟨_, rfl⟩, fun _ => trivial⟩
  | decimal mantissa e =>
    constructor
    · rintro ⟨fits, scale, d, value⟩
      exact ⟨d, fits, scale, value⟩
    · rintro ⟨d, fits, scale, value⟩
      exact ⟨fits, scale, d, value⟩

theorem spelled_append (a b : List Char) :
    Digits.value (withoutSeparators a ++ withoutSeparators b) = spelled 10 (a ++ b) := by
  rw [← value_withoutSeparators, withoutSeparators, withoutSeparators, withoutSeparators,
    List.filter_append]

theorem ofDigits?_eq_some_iff {sign : Sign} {m : Mantissa} {power : Int} {d : Decimal} :
    Decimal.ofDigits? (sign.chars = ['-']) (withoutSeparators m.digits) (withoutSeparators m.places)
        power = some d ↔
      FitsSigned 64 (m.size - power) ∧
        Decimal.checked (Literal.unscaled sign m) (m.size - power) = .ok d := by
  have value : (if decide (sign.chars = ['-']) = true then
      -(Digits.value (withoutSeparators m.digits ++ withoutSeparators m.places) : Int)
        else Digits.value (withoutSeparators m.digits ++ withoutSeparators m.places)) =
      Literal.unscaled sign m := by
    rw [spelled_append, Literal.unscaled, ← sign_apply]
    simp only [decide_eq_true_eq]
  unfold Decimal.ofDigits?
  dsimp only
  rw [value, ← Mantissa.size]
  constructor
  · intro h
    split at h
    · rename_i fits
      refine ⟨fits, ?_⟩
      cases result : Decimal.checked (Literal.unscaled sign m) (m.size - power) with
      | ok e =>
        rw [result] at h
        cases h
        rfl
      | error e =>
        rw [result] at h
        cases h
    · cases h
  · rintro ⟨fits, result⟩
    rw [if_pos fits, result]
    rfl

namespace Literal

def plain (l : Literal) : Bool :=
  match l.body with
  | .marked .. => false
  | .decimal mantissa e => l.sign.chars = [] && mantissa.fraction = [] && exponentChars e = []

theorem plain_iff (l : Literal) : l.plain = true ↔ l.IsPlain := by
  obtain ⟨sign, body⟩ := l
  constructor
  · intro h
    cases body with
    | marked mark base digits marks run => cases h
    | decimal mantissa e =>
      simp only [plain, Bool.and_eq_true, decide_eq_true_eq] at h
      obtain ⟨⟨unsigned, noPoint⟩, noExponent⟩ := h
      cases sign with
      | plus => cases unsigned
      | minus => cases unsigned
      | none =>
        cases mantissa with
        | point digits places run tail => cases noPoint
        | bare places run => cases noPoint
        | whole digits run =>
          cases e with
          | some e => cases noExponent
          | none => exact ⟨rfl, digits, run, rfl⟩
  · rintro ⟨unsigned, digits, run, same⟩
    cases unsigned
    cases same
    rfl

def numeral (l : Literal) (d : Decimal) : Numeral := ⟨d, String.ofList l.chars, l.plain⟩

end Literal

theorem exponent_ends (e : Option Exponent) {rest : List Char} (ends : Ends rest) :
    RunEnds 10 (exponentChars e ++ rest) ∧ (exponentChars e ++ rest).head? ≠ some '.' := by
  cases e with
  | none =>
    refine ⟨ends_run 10 ends, fun point => ?_⟩
    exact (ends '.' point).2.2 rfl
  | some e =>
    have head : (exponentChars (some e) ++ rest).head? = some e.mark := rfl
    rw [RunEnds, head]
    rcases e.isMark with small | capital
    · rw [small]
      decide
    · rw [capital]
      decide

theorem drop_fraction (m : Mantissa) : m.fraction.drop 1 = m.places := by
  cases m <;> rfl

theorem reads_digits (m : Mantissa) {rest : List Char} (ends : RunEnds 10 rest) :
    Reads optionalRun m.digits m.digits (m.fraction ++ rest) := by
  cases m with
  | whole digits run => exact reads_optionalRun run ends
  | point digits places run tail => exact reads_optionalRun run rfl
  | bare places run => exact reads_optionalRun_none rfl

theorem mantissa_nonempty (m : Mantissa) :
    ¬ (m.digits = [] ∧ withoutSeparators m.places = []) := by
  rintro ⟨noDigits, noPlaces⟩
  cases m with
  | whole digits run =>
    obtain ⟨d, rest, rfl, _⟩ := run_head run
    cases noDigits
  | point digits places run tail =>
    obtain ⟨d, rest, rfl, _⟩ := run_head run
    cases noDigits
  | bare places run => exact (isRun_withoutSeparators run).1 noPlaces

theorem reads_unmarked {sign : Sign} {m : Mantissa} {e : Option Exponent} {d : Decimal}
    {rest : List Char} (value : Yields ⟨sign, .decimal m e⟩ d) (ends : Ends rest) :
    Reads (unmarked sign.chars) (Body.decimal m e).chars
      (Literal.numeral ⟨sign, .decimal m e⟩ d) rest := by
  obtain ⟨fits, scale, value⟩ := value
  obtain ⟨runEnds, noPoint⟩ := exponent_ends e ends
  have whole : (Body.decimal m e).chars = m.digits ++ (m.fraction ++ exponentChars e) :=
    List.append_assoc ..
  rw [whole]
  refine reads_bind (List.append_assoc .. ▸ reads_digits m runEnds)
    (reads_bind (reads_fraction m runEnds noPoint) ?_)
  dsimp only
  rw [drop_fraction, if_neg (by simpa using mantissa_nonempty m)]
  intro limit position
  rw [run_bind (reads_exponent fits ends limit position)]
  dsimp only
  rw [ofDigits?_eq_some_iff.mpr ⟨scale, value⟩]
  dsimp only
  rw [run_pure]
  congr 2
  simp only [Literal.chars, whole, List.append_assoc]

theorem unmarked_sound {sign : Sign} {limit position : Nat} {cs : List Char} {n : Numeral}
    {t : Source} (h : unmarked sign.chars (before limit position cs) = .ok n t) :
    ∃ m e rest, Yields ⟨sign, .decimal m e⟩ n.value ∧
      n = Literal.numeral ⟨sign, .decimal m e⟩ n.value ∧
      cs = (Body.decimal m e).chars ++ rest ∧
      t = before limit (position + (Body.decimal m e).chars.length) rest := by
  obtain ⟨whole, u, first, h⟩ := bind_ok h
  obtain ⟨cs, rfl, rfl, hasDigits⟩ := optionalRun_sound first
  obtain ⟨written, u, second, h⟩ := bind_ok h
  obtain ⟨cs, rfl, rfl, hasPoint⟩ := fraction_sound second
  dsimp only at h
  -- digits on at least one side of the point make a mantissa
  have mantissa : ¬ (whole = [] ∧ withoutSeparators (written.drop 1) = []) →
      ∃ m : Mantissa, whole = m.digits ∧ written = m.fraction := by
    intro some_
    rcases hasDigits with rfl | run
    · rcases hasPoint with rfl | ⟨places, rfl, rfl | places_run⟩
      · exact absurd ⟨rfl, rfl⟩ some_
      · exact absurd ⟨rfl, rfl⟩ some_
      · exact ⟨.bare places places_run, rfl, rfl⟩
    · rcases hasPoint with rfl | ⟨places, rfl, tail⟩
      · exact ⟨.whole whole run, rfl, rfl⟩
      · exact ⟨.point whole places run tail, rfl, rfl⟩
  split at h
  · obtain ⟨_, _, bad, _⟩ := bind_ok h
    unfold unexpected at bad
    split at bad <;> cases bad
  · rename_i some_
    obtain ⟨m, rfl, rfl⟩ := mantissa (by simpa using some_)
    obtain ⟨⟨chars, power⟩, u, third, h⟩ := bind_ok h
    obtain ⟨e, rest, rfl, rfl, fits, rfl, rfl⟩ := exponent_sound third
    dsimp only at h
    rw [drop_fraction] at h
    cases result : Decimal.ofDigits? (sign.chars = ['-']) (withoutSeparators m.digits)
        (withoutSeparators m.places) (exponentPower e) with
    | none =>
      rw [result] at h
      cases h
    | some d =>
      rw [result] at h
      cases h
      obtain ⟨scale, value⟩ := ofDigits?_eq_some_iff.mp result
      refine ⟨m, e, rest, ⟨fits, scale, value⟩, ?_, ?_, ?_⟩
      · simp only [Literal.numeral, Literal.chars, Body.chars, Mantissa.chars, List.append_assoc]
        rfl
      · simp only [Body.chars, Mantissa.chars, List.append_assoc]
      · simp only [Body.chars, Mantissa.chars, List.length_append, Nat.add_assoc]

theorem reads_marked {sign : Sign} {mark : Char} {base : Nat} {digits rest : List Char}
    (run : Run base digits) (ends : RunEnds base rest) :
    Reads (marked sign.chars base) ('0' :: mark :: digits)
      ⟨Decimal.ofInt (sign.apply (spelled base digits)),
        String.ofList (sign.chars ++ '0' :: mark :: digits), false⟩ rest := by
  refine reads_bind (reads_read '0' _) (reads_bind (reads_read mark _)
    (reads_get fun limit position => ?_))
  have head : (before limit position (digits ++ rest)).current.any (Digits.isDigitOf base) = true := by
    obtain ⟨d, more, rfl, digit⟩ := run_head run
    exact digit
  dsimp only
  rw [if_pos head]
  intro limit position
  rw [run_bind (reads_run run ends limit position), Digits.valueIn_eq_foldl, ← spelled, sign_apply,
    run_pure]
  congr 2
  simp

theorem marked_sound {sign : Sign} {mark : Char} {base : Nat} {limit position : Nat}
    {cs : List Char} {n : Numeral} {t : Source}
    (h : marked sign.chars base (before limit position ('0' :: mark :: cs)) = .ok n t) :
    ∃ digits rest, Run base digits ∧ cs = digits ++ rest ∧
      n = ⟨Decimal.ofInt (sign.apply (spelled base digits)),
        String.ofList (sign.chars ++ '0' :: mark :: digits), false⟩ ∧
      t = before limit (position + ('0' :: mark :: digits).length) rest := by
  obtain ⟨zero, u, first, h⟩ := bind_ok h
  rw [read_before_cons] at first
  cases first
  obtain ⟨mark', u, second, h⟩ := bind_ok h
  rw [read_before_cons] at second
  cases second
  rw [run_get_bind] at h
  dsimp only at h
  split at h
  · rename_i digit
    obtain ⟨digits, u, third, h⟩ := bind_ok h
    obtain ⟨rest, rfl, rfl, run, _⟩ := run_sound _ _ third
    rw [Digits.valueIn_eq_foldl, ← spelled, sign_apply] at h
    cases h
    refine ⟨digits, rest, run digit, rfl, ?_, ?_⟩
    · simp
    · congr 1
      simp only [List.length_cons]
      omega
  · obtain ⟨_, _, bad, _⟩ := bind_ok h
    cases bad

def IsDecimalChar (c : Char) : Prop :=
  c.isDigit = true ∨ c = '_' ∨ c = '.' ∨ c = 'e' ∨ c = 'E' ∨ c = '+' ∨ c = '-'

theorem not_marks_of_isDecimalChar {c : Char} (h : IsDecimalChar c) (base : Nat) :
    ¬ Marks c base := by
  intro marks
  cases marks <;> revert h <;> unfold IsDecimalChar <;> decide

theorem isDecimalChar_of_run {cs : List Char} (h : Run 10 cs) : ∀ c ∈ cs, IsDecimalChar c := by
  intro c mem
  rcases mem_run h c mem with digit | line
  · exact Or.inl (Digits.isDigitOf_ten c ▸ digit)
  · exact Or.inr (Or.inl line)

theorem isDecimalChar_of_mantissa (m : Mantissa) : ∀ c ∈ m.chars, IsDecimalChar c := by
  intro c mem
  rcases List.mem_append.mp mem with before | behind
  · clear mem
    cases m with
    | whole digits run => exact isDecimalChar_of_run run c before
    | point digits places run tail => exact isDecimalChar_of_run run c before
    | bare places run => cases before
  · clear mem
    cases m with
    | whole digits run => cases behind
    | point digits places run tail =>
      rcases List.mem_cons.mp behind with rfl | place
      · exact Or.inr (Or.inr (Or.inl rfl))
      · rcases tail with rfl | tail
        · cases place
        · exact isDecimalChar_of_run tail c place
    | bare places run =>
      rcases List.mem_cons.mp behind with rfl | place
      · exact Or.inr (Or.inr (Or.inl rfl))
      · exact isDecimalChar_of_run run c place

theorem isDecimalChar_of_sign {sign : Sign} {c : Char} (mem : c ∈ sign.chars) :
    IsDecimalChar c := by
  cases sign with
  | none => cases mem
  | plus => cases List.mem_singleton.mp mem; simp [IsDecimalChar]
  | minus => cases List.mem_singleton.mp mem; simp [IsDecimalChar]

theorem isDecimalChar_of_exponent (e : Option Exponent) :
    ∀ c ∈ exponentChars e, IsDecimalChar c := by
  intro c mem
  cases e with
  | none => cases mem
  | some e =>
    rcases List.mem_append.mp mem with mem | mem
    · rcases List.mem_cons.mp mem with rfl | mem
      · rcases e.isMark with small | capital
        · rw [small]; simp [IsDecimalChar]
        · rw [capital]; simp [IsDecimalChar]
      · exact isDecimalChar_of_sign mem
    · exact isDecimalChar_of_run e.run c mem

theorem isDecimalChar_of_body (m : Mantissa) (e : Option Exponent) :
    ∀ c ∈ (Body.decimal m e).chars, IsDecimalChar c := by
  intro c mem
  rcases List.mem_append.mp mem with mem | mem
  · exact isDecimalChar_of_mantissa m c mem
  · exact isDecimalChar_of_exponent e c mem

theorem body_head (b : Body) (rest : List Char) :
    ∃ c more, b.chars ++ rest = c :: more ∧ isSign c = false := by
  cases b with
  | marked mark base digits marks run => exact ⟨'0', _, rfl, rfl⟩
  | decimal m e =>
    cases m with
    | whole digits run =>
      obtain ⟨d, more, rfl, digit⟩ := run_head run
      exact ⟨d, _, rfl, not_isSign_of_isDigitOf digit⟩
    | point digits places run tail =>
      obtain ⟨d, more, rfl, digit⟩ := run_head run
      exact ⟨d, _, rfl, not_isSign_of_isDigitOf digit⟩
    | bare places run => exact ⟨'.', _, rfl, rfl⟩

theorem announcedBase?_decimal (limit position : Nat) (m : Mantissa) (e : Option Exponent)
    {rest : List Char} (ends : Ends rest) :
    announcedBase? (before limit position ((Body.decimal m e).chars ++ rest)) = none := by
  have unmarked : ∀ c ∈ ((Body.decimal m e).chars ++ rest).tail.head?, base? c = none := by
    intro c second
    rw [Option.eq_none_iff_forall_ne_some]
    intro base found
    have marks := base?_eq_some_iff.mp found
    cases chars : (Body.decimal m e).chars with
    | nil =>
      obtain ⟨c, more, same, _⟩ := body_head (.decimal m e) []
      rw [chars] at same
      cases same
    | cons d more =>
      rw [chars, List.cons_append, List.tail_cons] at second
      cases more with
      | nil =>
        have letter := (ends c second).1
        rw [isAlphanum_of_marks marks] at letter
        cases letter
      | cons c' more =>
        cases second
        refine not_marks_of_isDecimalChar (isDecimalChar_of_body m e c ?_) base marks
        rw [chars]
        exact List.mem_cons_of_mem d List.mem_cons_self
  unfold announcedBase?
  split
  · rw [next_before]
    cases second : ((Body.decimal m e).chars ++ rest).tail.head? with
    | none => rfl
    | some c => exact unmarked c second
  · rfl

theorem reads_scan {l : Literal} {d : Decimal} {rest : List Char} (value : Yields l d)
    (ends : Ends rest) : Reads scan l.chars (l.numeral d) rest := by
  obtain ⟨sign, body⟩ := l
  obtain ⟨c, more, head, other⟩ := body_head body rest
  refine reads_bind (reads_sign sign ?_) (reads_get fun limit position => ?_)
  · rw [head]
    exact other
  · cases body with
    | decimal m e =>
      rw [announcedBase?_decimal limit position m e ends]
      exact reads_unmarked value ends
    | marked mark base digits marks run =>
      have announced : announcedBase?
          (before limit position ((Body.marked mark base digits marks run).chars ++ rest)) =
            some base := base?_eq_some_iff.mpr marks
      rw [announced]
      cases value
      exact reads_marked run (ends_run base ends)

theorem scan_sound {limit position : Nat} {cs : List Char} {n : Numeral} {t : Source}
    (h : scan (before limit position cs) = .ok n t) :
    ∃ l rest, Yields l n.value ∧ n = l.numeral n.value ∧ cs = l.chars ++ rest ∧
      t = before limit (position + l.chars.length) rest := by
  obtain ⟨_, u, first, h⟩ := bind_ok h
  obtain ⟨sign, cs, rfl, rfl, rfl⟩ := sign_sound first
  rw [run_get_bind] at h
  generalize announced : announcedBase? (before limit (position + sign.chars.length) cs) = found at h
  cases found with
  | none =>
    obtain ⟨m, e, rest, value, same, rfl, rfl⟩ := unmarked_sound h
    refine ⟨⟨sign, .decimal m e⟩, rest, value, same, ?_, ?_⟩
    · rw [Literal.chars, List.append_assoc]
    · rw [Literal.chars, List.length_append, Nat.add_assoc]
  | some base =>
    unfold announcedBase? at announced
    split at announced
    · rename_i zero
      rw [current_before] at zero
      rw [next_before] at announced
      -- the zero and the mark at the cursor
      cases cs with
      | nil => cases zero
      | cons z cs =>
        cases zero
        cases cs with
        | nil => cases announced
        | cons mark cs =>
          have marks : Marks mark base := base?_eq_some_iff.mp announced
          obtain ⟨digits, rest, run, rfl, same, rfl⟩ := marked_sound h
          refine ⟨⟨sign, .marked mark base digits marks run⟩, rest, ?_, ?_, ?_, ?_⟩
          · rw [same]
            rfl
          · rw [same]
            rfl
          · simp [Literal.chars, Body.chars]
          · simp only [Literal.chars, Body.chars, List.length_append, Nat.add_assoc]
    · cases announced

end TemplateExpr.Numeral
