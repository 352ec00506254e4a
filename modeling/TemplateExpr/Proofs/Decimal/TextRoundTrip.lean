import TemplateExpr.Value.Basic
import TemplateExpr.Proofs.Numeral.Acceptance
/-!
Numbers as text. Each layout that a number is written in is a decimal literal without separators, and on such
a literal the reader of decimals agrees with the reader of numerals. So both bring back a normal number from
its text.
-/
namespace TemplateExpr.Numeral

theorem withoutSeparators_of_digits {cs : List Char} (digits : ∀ c ∈ cs, c.isDigit = true) :
    withoutSeparators cs = cs := by
  refine List.filter_eq_self.mpr fun c mem => ?_
  rw [bne_iff_ne]
  rintro rfl
  exact absurd (digits '_' mem) (by decide)

theorem run_of_isRun {cs : List Char} (h : Digits.IsRun cs) : Run 10 cs := by
  obtain ⟨nonempty, digits⟩ := h
  induction cs with
  | nil => exact absurd rfl nonempty
  | cons d cs ih =>
    have digit : Digits.isDigitOf 10 d = true := by
      rw [Digits.isDigitOf_ten]
      exact digits d List.mem_cons_self
    cases cs with
    | nil => exact .last digit
    | cons e cs =>
      have later := fun c mem => digits c (List.mem_cons_of_mem d mem)
      exact .next digit (ih (List.cons_ne_nil e cs) later)

theorem spelled_of_digits {cs : List Char} (digits : ∀ c ∈ cs, c.isDigit = true) :
    spelled 10 cs = Nat.ofDigitChars 10 cs 0 := by
  rw [← value_withoutSeparators, withoutSeparators_of_digits digits]
  exact Digits.value_eq_ofDigitChars digits

def Bare (m : Mantissa) (e : Option Exponent) : Prop :=
  (∀ c ∈ m.digits ++ m.places, c.isDigit = true) ∧ ∀ x ∈ e, ∀ c ∈ x.digits, c.isDigit = true

theorem ofMantissa?_bare {m : Mantissa} (bare : Bare m none) (negative : Bool) (power : Int) :
    Decimal.ofMantissa? negative m.chars power = Decimal.ofDigits? negative m.digits m.places power := by
  have digits := bare.1
  have front : ∀ c ∈ m.digits, (c != '.') = true := by
    intro c mem
    rw [bne_iff_ne]
    rintro rfl
    exact absurd (digits '.' (List.mem_append_left _ mem)) (by decide)
  have back : m.fraction.head?.any (· != '.') = false := by
    cases m <;> rfl
  obtain ⟨whole, fraction⟩ := span_append front back
  have nonempty : m.digits ++ m.places ≠ [] := by
    intro none
    obtain ⟨noDigits, noPlaces⟩ := List.append_eq_nil_iff.mp none
    refine mantissa_nonempty m ⟨noDigits, ?_⟩
    rw [noPlaces]
    rfl
  unfold Decimal.ofMantissa?
  rw [Mantissa.chars, whole, fraction, drop_fraction]
  exact if_pos ⟨nonempty, digits⟩

theorem signed?_sign (sign : Sign) {cs : List Char} (h : Digits.IsRun cs)
    (fits : FitsSigned 64 (Digits.value cs)) :
    Digits.signed? 64 (sign.chars ++ cs) = some (sign.apply (Digits.value cs)) := by
  have number : Digits.run? cs = some (Digits.value cs) := if_pos h
  cases sign with
  | none =>
    rw [Sign.chars, List.nil_append, signed?_isRun h, if_pos fits]
    rfl
  | plus =>
    change (Option.map (fun n : Nat => (n : Int)) (Digits.run? cs)).filter
      (fun n => decide (FitsSigned 64 n)) = _
    rw [number, Option.map_some, Option.filter_some, if_pos (decide_eq_true fits)]
    rfl
  | minus =>
    have negated : FitsSigned 64 (-(Digits.value cs : Int)) := by
      have bound := fits.2
      constructor <;> omega
    change (Option.map (fun n : Nat => -(n : Int)) (Digits.run? cs)).filter
      (fun n => decide (FitsSigned 64 n)) = _
    rw [number, Option.map_some, Option.filter_some, if_pos (decide_eq_true negated)]
    rfl

theorem power?_bare {m : Mantissa} {e : Option Exponent} (bare : Bare m e) (fits : ExponentFits e) :
    Decimal.power? (exponentChars e) = some (exponentPower e) := by
  cases e with
  | none => rfl
  | some e =>
    have same := withoutSeparators_of_digits (bare.2 e rfl)
    have run : Digits.IsRun e.digits := same ▸ isRun_withoutSeparators e.run
    have value : Digits.value e.digits = spelled 10 e.digits := by
      rw [← value_withoutSeparators, same]
    have bound : FitsSigned 64 (Digits.value e.digits) := value ▸ fits e rfl
    change Digits.signed? 64 (e.sign.chars ++ e.digits) = _
    rw [signed?_sign e.sign run bound, value]
    rfl

theorem not_mark_of_bare {m : Mantissa} {e : Option Exponent} (bare : Bare m e) (sign : Sign) :
    ∀ c ∈ sign.chars ++ m.chars, (! Decimal.isExponentMark c) = true := by
  have letters : ∀ c : Char, c.isDigit = true → (! Decimal.isExponentMark c) = true := by
    intro c digit
    rw [Bool.not_eq_true', Decimal.isExponentMark, Bool.or_eq_false_iff, beq_eq_false_iff_ne,
      beq_eq_false_iff_ne]
    constructor <;> (rintro rfl; exact absurd digit (by decide))
  intro c mem
  rcases List.mem_append.mp mem with mem | mem
  · cases sign with
    | none => cases mem
    | plus => cases List.mem_singleton.mp mem; rfl
    | minus => cases List.mem_singleton.mp mem; rfl
  · rcases List.mem_append.mp mem with before | behind
    · exact letters c (bare.1 c (List.mem_append_left _ before))
    · have place : c = '.' ∨ c ∈ m.places := by
        cases m with
        | whole digits run => cases behind
        | point digits places run tail => exact List.mem_cons.mp behind
        | bare places run => exact List.mem_cons.mp behind
      rcases place with rfl | place
      · rfl
      · exact letters c (bare.1 c (List.mem_append_right _ place))

theorem ofChars?_bare {sign : Sign} {m : Mantissa} {e : Option Exponent} {d : Decimal}
    (bare : Bare m e) (value : Yields ⟨sign, .decimal m e⟩ d) :
    Decimal.ofChars? (Literal.chars ⟨sign, .decimal m e⟩) = some d := by
  obtain ⟨fits, range⟩ := value
  have mark : (exponentChars e).head?.any (! Decimal.isExponentMark ·) = false := by
    cases e with
    | none => rfl
    | some e =>
      change (! Decimal.isExponentMark e.mark) = false
      rcases e.isMark with small | capital
      · rw [small]; rfl
      · rw [capital]; rfl
  obtain ⟨front, back⟩ := span_append (not_mark_of_bare bare sign) mark
  have read : ∀ negative : Bool, negative = decide (sign.chars = ['-']) →
      Decimal.ofMantissa? negative m.chars (exponentPower e) = some d := by
    rintro negative rfl
    have result := ofDigits?_eq_some_iff.mpr range
    rw [withoutSeparators_of_digits fun c mem => bare.1 c (List.mem_append_left _ mem),
      withoutSeparators_of_digits fun c mem => bare.1 c (List.mem_append_right _ mem)] at result
    rw [ofMantissa?_bare ⟨bare.1, fun x none => absurd none (Option.not_mem_none x)⟩]
    exact result
  have chars : Literal.chars ⟨sign, .decimal m e⟩ = sign.chars ++ m.chars ++ exponentChars e := by
    rw [Literal.chars, Body.chars, List.append_assoc]
  rw [Decimal.ofChars?, chars, front, back, power?_bare bare fits]
  change Decimal.ofSigned? (sign.chars ++ m.chars) (exponentPower e) = some d
  cases sign with
  | plus => exact read false rfl
  | minus => exact read true rfl
  | none =>
    obtain ⟨c, more, head, other⟩ := body_head (.decimal m none) []
    have first : m.chars = c :: more := by
      rw [← head, Body.chars, exponentChars, List.append_nil, List.append_nil]
    change Decimal.ofSigned? m.chars (exponentPower e) = some d
    unfold Decimal.ofSigned?
    split
    · rename_i same
      cases first.symm.trans same
      cases other
    · rename_i same
      cases first.symm.trans same
      cases other
    · exact read false rfl

end TemplateExpr.Numeral

namespace TemplateExpr.Decimal

open Numeral

theorem digits_eq (d : Decimal) : d.digits = Nat.toDigits 10 d.unscaled.natAbs :=
  Digits.ofNat_eq_toDigits _

theorem isRun_toDigits (n : Nat) : Digits.IsRun (Nat.toDigits 10 n) :=
  ⟨Nat.toDigits_ne_nil, fun _ mem => Nat.isDigit_of_mem_toDigits (by decide) (by decide) mem⟩

theorem isRun_digits (d : Decimal) : Digits.IsRun d.digits := by
  rw [digits_eq]
  exact isRun_toDigits _

theorem spelled_toDigits (n : Nat) : spelled 10 (Nat.toDigits 10 n) = n := by
  rw [spelled_of_digits (isRun_toDigits n).2]
  exact Nat.ofDigitChars_ten_toDigits

theorem isDigit_of_mem_zeros {n : Nat} {c : Char} (mem : c ∈ List.replicate n '0') :
    c.isDigit = true := by
  rw [(List.mem_replicate.mp mem).2]
  rfl

theorem spelled_digits_zeros (d : Decimal) (zeros : Nat) :
    spelled 10 (d.digits ++ List.replicate zeros '0') = d.unscaled.natAbs * tenPow zeros := by
  rw [spelled_of_digits, Nat.ofDigitChars_append, Nat.ofDigitChars_replicate_zero, digits_eq,
    Nat.ofDigitChars_ten_toDigits, Nat.mul_comm]
  · rfl
  · intro c mem
    rcases List.mem_append.mp mem with mem | mem
    · exact (isRun_digits d).2 c mem
    · exact isDigit_of_mem_zeros mem

theorem spelled_zeros_digits (d : Decimal) (zeros : Nat) :
    spelled 10 (List.replicate zeros '0' ++ d.digits) = d.unscaled.natAbs := by
  rw [spelled_of_digits, Nat.ofDigitChars_append, Nat.ofDigitChars_replicate_zero, Nat.mul_zero,
    digits_eq, Nat.ofDigitChars_ten_toDigits]
  intro c mem
  rcases List.mem_append.mp mem with mem | mem
  · exact isDigit_of_mem_zeros mem
  · exact (isRun_digits d).2 c mem

def sign (d : Decimal) : Sign := if d.IsNegative then .minus else .none

theorem chars_sign (d : Decimal) : d.sign.chars = if d.IsNegative then ['-'] else [] := by
  unfold sign
  split <;> rfl

theorem apply_sign (d : Decimal) : d.sign.apply d.unscaled.natAbs = d.unscaled := by
  by_cases negative : d.IsNegative
  · rw [sign, if_pos negative, Sign.apply, if_pos rfl]
    unfold IsNegative at negative
    omega
  · rw [sign, if_neg negative, Sign.apply, if_neg (by decide)]
    unfold IsNegative at negative
    omega

theorem apply_mul (s : Sign) (a b : Int) : s.apply (a * b) = s.apply a * b := by
  unfold Sign.apply
  split
  · exact (Int.neg_mul a b).symm
  · rfl

theorem yields_padded {d : Decimal} (normal : d.IsNormal) {m : Mantissa} {e : Option Exponent}
    {zeros : Nat} (fits : ExponentFits e)
    (value : spelled 10 (m.digits ++ m.places) = d.unscaled.natAbs * tenPow zeros)
    (scale : m.size - exponentPower e = d.scale + zeros) (few : d.scale + zeros ≤ maxScale) :
    Yields ⟨d.sign, .decimal m e⟩ d := by
  have low := normal.minScale_le
  unfold minScale at low
  unfold maxScale at few
  refine ⟨fits, ?_, ?_⟩
  · rw [scale, fitsSigned_64_iff]
    omega
  · rw [Literal.unscaled, value, scale, Int.natCast_mul, apply_mul, apply_sign]
    exact checked_padded normal zeros

/-- The text of a number is a literal without separators that yields the number. -/
def Writes (d : Decimal) : Prop :=
  ∃ m e, Literal.chars ⟨d.sign, .decimal m e⟩ = d.toChars ∧ Bare m e ∧
    Yields ⟨d.sign, .decimal m e⟩ d

theorem chars_of_body {d : Decimal} {b : Body}
    (body : b.chars = if plainZeros < d.padding then d.scientificChars else d.plainChars) :
    Literal.chars ⟨d.sign, b⟩ = d.toChars := by
  rw [Literal.chars, body, chars_sign, toChars]

def exponentOf (n : Int) : Exponent where
  mark := 'E'
  sign := if n < 0 then .minus else .plus
  digits := Nat.toDigits 10 n.natAbs
  isMark := Or.inr rfl
  run := run_of_isRun (isRun_toDigits n.natAbs)

theorem chars_exponentOf (n : Int) : (exponentOf n).chars = 'E' :: signedInt n := by
  unfold exponentOf Exponent.chars signedInt
  split <;> rfl

theorem power_exponentOf (n : Int) : (exponentOf n).power = n := by
  rw [Exponent.power, exponentOf, spelled_toDigits]
  dsimp only
  split
  · rw [Sign.apply, if_pos rfl]
    omega
  · rw [Sign.apply, if_neg (by decide)]
    omega

theorem exponentOf_fits {n : Int} (fits : FitsSigned 64 n.natAbs) :
    ExponentFits (some (exponentOf n)) := by
  intro e mem
  cases mem
  rw [exponentOf, spelled_toDigits]
  exact fits

theorem yields_of_isNormal {d : Decimal} (normal : d.IsNormal) :
    ∃ b, Yields ⟨d.sign, b⟩ d := by
  have fits : ExponentFits (some (exponentOf (-d.scale))) := by
    refine exponentOf_fits ((fitsSigned_64_iff _).mpr ?_)
    have low := normal.minScale_le
    have high := normal.le_maxScale
    unfold minScale at low
    unfold maxScale at high
    omega
  refine ⟨.decimal (.whole d.digits (run_of_isRun (isRun_digits d))) (some (exponentOf (-d.scale))), ?_⟩
  refine @yields_padded d normal _ _ 0 fits ?_ ?_ ?_
  · rw [Mantissa.digits, Mantissa.places, List.append_nil, tenPow_zero, Nat.mul_one, digits_eq,
      spelled_toDigits]
  · rw [exponentPower, power_exponentOf]
    simp [Mantissa.size, Mantissa.places, withoutSeparators]
  · have high := normal.le_maxScale
    omega

theorem writes_scientific {d : Decimal} (normal : d.IsNormal) (long : plainZeros < d.padding)
    (counted : d.scale < -plainZeros → FitsSigned 64 d.integerDigits) : Writes d := by
  obtain ⟨first, more, digits⟩ : ∃ first more, d.digits = first :: more :=
    List.exists_cons_of_ne_nil (isRun_digits d).1
  have run := isRun_digits d
  rw [digits] at run
  have head : Digits.IsRun [first] :=
    ⟨List.cons_ne_nil _ _, fun c mem => run.2 c (List.mem_of_mem_take (i := 1) mem)⟩
  have value : spelled 10 (first :: more) = d.unscaled.natAbs * tenPow 0 := by
    rw [← digits, tenPow_zero, Nat.mul_one, digits_eq, spelled_toDigits]
  have count : d.integerDigits = more.length + 1 - d.scale := by
    rw [integerDigits, digitCount, ← Decimal.digits, digits, List.length_cons, Int.natCast_add]
    rfl
  have fits : ExponentFits (some (exponentOf (d.integerDigits - 1))) := by
    refine exponentOf_fits ((fitsSigned_64_iff _).mpr ?_)
    have low := normal.minScale_le
    have high := normal.le_maxScale
    rw [padding, digits, List.length_cons] at long
    rw [fitsSigned_64_iff] at counted
    unfold minScale at low
    unfold maxScale at high
    unfold plainZeros at long counted
    split at long <;> omega
  have bare : ∀ x ∈ some (exponentOf (d.integerDigits - 1)), ∀ c ∈ x.digits, c.isDigit = true := by
    intro x mem
    cases mem
    intro c mem
    exact (isRun_toDigits _).2 c mem
  have small := normal.le_maxScale
  cases more with
  | nil =>
    refine ⟨.whole [first] (run_of_isRun head), some (exponentOf (d.integerDigits - 1)), ?_, ?_, ?_⟩
    · refine chars_of_body ?_
      rw [if_pos long, scientificChars, digits, Body.chars, exponentChars, chars_exponentOf]
      rfl
    · exact ⟨run.2, bare⟩
    · refine yields_padded normal fits value ?_ (by omega)
      rw [exponentPower, power_exponentOf, count]
      simp [Mantissa.size, Mantissa.places, withoutSeparators]
  | cons second more =>
    have tail : Digits.IsRun (second :: more) :=
      ⟨List.cons_ne_nil _ _, fun c mem => run.2 c (List.mem_cons_of_mem _ mem)⟩
    refine ⟨.point [first] (second :: more) (run_of_isRun head) (Or.inr (run_of_isRun tail)),
      some (exponentOf (d.integerDigits - 1)), ?_, ?_, ?_⟩
    · refine chars_of_body ?_
      rw [if_pos long, scientificChars, digits, Body.chars, exponentChars, chars_exponentOf]
      rfl
    · exact ⟨run.2, bare⟩
    · refine yields_padded normal fits value ?_ (by omega)
      rw [exponentPower, power_exponentOf, count, Mantissa.size, Mantissa.places,
        withoutSeparators_of_digits tail.2]
      omega

theorem bare_none {m : Mantissa} (digits : ∀ c ∈ m.digits ++ m.places, c.isDigit = true) :
    Bare m none :=
  ⟨digits, fun x none => absurd none (Option.not_mem_none x)⟩

theorem fits_none : ExponentFits none := fun e none => absurd none (Option.not_mem_none e)

theorem writes_integer {d : Decimal} (normal : d.IsNormal) (short : ¬ plainZeros < d.padding)
    (whole : d.scale ≤ 0) : Writes d := by
  have zeros : d.plainChars = d.digits ++ List.replicate (-d.scale).toNat '0' := by
    rw [plainChars, if_pos whole]
    split
    · rename_i zero
      rw [normal.scale_of_zero zero]
      exact (List.append_nil _).symm
    · rfl
  have run : Digits.IsRun (d.digits ++ List.replicate (-d.scale).toNat '0') := by
    refine ⟨fun none => (isRun_digits d).1 (List.append_eq_nil_iff.mp none).1, fun c mem => ?_⟩
    rcases List.mem_append.mp mem with mem | mem
    · exact (isRun_digits d).2 c mem
    · exact isDigit_of_mem_zeros mem
  refine ⟨.whole _ (run_of_isRun run), none, ?_, ?_, ?_⟩
  · refine chars_of_body ?_
    rw [if_neg short, zeros, Body.chars, exponentChars, Mantissa.chars, Mantissa.fraction,
      List.append_nil, List.append_nil]
    rfl
  · refine bare_none fun c mem => run.2 c ?_
    rwa [Mantissa.digits, Mantissa.places, List.append_nil] at mem
  · refine @yields_padded d normal _ _ (-d.scale).toNat fits_none ?_ ?_ ?_
    · rw [Mantissa.digits, Mantissa.places, List.append_nil, spelled_digits_zeros]
    · rw [exponentPower]
      simp only [Mantissa.size, Mantissa.places, withoutSeparators, List.filter_nil, List.length_nil]
      omega
    · unfold maxScale
      omega

theorem writes_split {d : Decimal} (normal : d.IsNormal) (short : ¬ plainZeros < d.padding)
    (fractional : 0 < d.scale) (few : d.scale.toNat < d.digits.length) : Writes d := by
  have digits := (isRun_digits d).2
  have front : Digits.IsRun (d.digits.take (d.digits.length - d.scale.toNat)) := by
    refine ⟨fun none => ?_, fun c mem => digits c (List.mem_of_mem_take mem)⟩
    have length := congrArg List.length none
    rw [List.length_take, List.length_nil] at length
    omega
  have back : Digits.IsRun (d.digits.drop (d.digits.length - d.scale.toNat)) := by
    refine ⟨fun none => ?_, fun c mem => digits c (List.mem_of_mem_drop mem)⟩
    have length := congrArg List.length none
    rw [List.length_drop, List.length_nil] at length
    omega
  refine ⟨.point _ _ (run_of_isRun front) (Or.inr (run_of_isRun back)), none, ?_, ?_, ?_⟩
  · refine chars_of_body ?_
    rw [if_neg short, plainChars, if_neg (by omega), Body.chars, exponentChars, List.append_nil]
    exact (if_pos few).symm
  · refine bare_none fun c mem => digits c ?_
    rwa [Mantissa.digits, Mantissa.places, List.take_append_drop] at mem
  · refine @yields_padded d normal _ _ 0 fits_none ?_ ?_ ?_
    · rw [Mantissa.digits, Mantissa.places, List.take_append_drop, tenPow_zero, Nat.mul_one,
        digits_eq, spelled_toDigits]
    · rw [exponentPower, Mantissa.size, Mantissa.places, withoutSeparators_of_digits back.2,
        List.length_drop]
      omega
    · have := normal.le_maxScale
      omega

theorem writes_leading {d : Decimal} (normal : d.IsNormal) (short : ¬ plainZeros < d.padding)
    (fractional : 0 < d.scale) (many : ¬ d.scale.toNat < d.digits.length) : Writes d := by
  have zero : Digits.IsRun ['0'] := isRun_toDigits 0
  have places : Digits.IsRun (List.replicate (d.scale.toNat - d.digits.length) '0' ++ d.digits) := by
    refine ⟨fun none => (isRun_digits d).1 (List.append_eq_nil_iff.mp none).2, fun c mem => ?_⟩
    rcases List.mem_append.mp mem with mem | mem
    · exact isDigit_of_mem_zeros mem
    · exact (isRun_digits d).2 c mem
  have all : ['0'] ++ (List.replicate (d.scale.toNat - d.digits.length) '0' ++ d.digits) =
      List.replicate (d.scale.toNat - d.digits.length + 1) '0' ++ d.digits := by
    rw [List.replicate_succ]
    rfl
  refine ⟨.point _ _ (run_of_isRun zero) (Or.inr (run_of_isRun places)), none, ?_, ?_, ?_⟩
  · refine chars_of_body ?_
    rw [if_neg short, plainChars, if_neg (by omega), Body.chars, exponentChars, List.append_nil]
    exact (if_neg many).symm
  · refine bare_none fun c mem => ?_
    rcases List.mem_append.mp mem with mem | mem
    · exact zero.2 c mem
    · exact places.2 c mem
  · refine @yields_padded d normal _ _ 0 fits_none ?_ ?_ ?_
    · rw [Mantissa.digits, Mantissa.places, all, spelled_zeros_digits, tenPow_zero, Nat.mul_one]
    · rw [exponentPower, Mantissa.size, Mantissa.places, withoutSeparators_of_digits places.2,
        List.length_append, List.length_replicate]
      omega
    · have := normal.le_maxScale
      omega

theorem writes_of_isNormal {d : Decimal} (normal : d.IsNormal)
    (counted : d.scale < -plainZeros → FitsSigned 64 d.integerDigits) : Writes d := by
  by_cases long : plainZeros < d.padding
  · exact writes_scientific normal long counted
  · by_cases whole : d.scale ≤ 0
    · exact writes_integer normal long whole
    · by_cases few : d.scale.toNat < d.digits.length
      · exact writes_split normal long (by omega) few
      · exact writes_leading normal long (by omega) few

theorem isBlank_of_isDecimalChar {c : Char} (h : IsDecimalChar c) : isBlank c = false := by
  rcases h with digit | rfl | rfl | rfl | rfl | rfl | rfl
  · exact isBlank_of_isDigit digit
  all_goals rfl

theorem trimText_of_sound {text : String} (sound : ∀ c ∈ text.toList, isBlank c = false) :
    trimText text = text := by
  rw [trimText, trimBlanks_of_sound sound, String.ofList_toList]

/-- A normal number comes back from its text, through each of the readers. A positive exponent is one less
than the number of digits before the point, which is a 64-bit integer. -/
theorem asNumber_toText {d : Decimal} (normal : d.IsNormal)
    (counted : d.scale < -plainZeros → FitsSigned 64 d.integerDigits) :
    ofText? d.toText = some d ∧ (∃ n, Numeral.ofText d.toText = .ok n ∧ n.value = d) ∧
      (Value.text (Value.number d).asText).asNumber = .ok d := by
  obtain ⟨m, e, chars, bare, value⟩ := writes_of_isNormal normal counted
  have written : Literal.chars ⟨d.sign, .decimal m e⟩ = d.toText.toList := by
    rw [chars, toText, String.toList_ofList]
  have read := ofText_of_yields written value
  have sound : ∀ c ∈ d.toText.toList, isBlank c = false := by
    intro c mem
    rw [← written] at mem
    rcases List.mem_append.mp mem with mem | mem
    · exact isBlank_of_isDecimalChar (isDecimalChar_of_sign mem)
    · exact isBlank_of_isDecimalChar (isDecimalChar_of_body m e c mem)
  refine ⟨?_, ⟨_, read, rfl⟩, ?_⟩
  · rw [ofText?, ← written]
    exact ofChars?_bare bare value
  · rw [Value.asText, Value.asNumber, trimText_of_sound sound, read]
    rfl

theorem asNumber_toText_exponent :
    (⟨7, -100000⟩ : Decimal).toText = "7E+100000" ∧
      ofText? (⟨7, -100000⟩ : Decimal).toText = some ⟨7, -100000⟩ ∧
      (∃ n, Numeral.ofText (⟨7, -100000⟩ : Decimal).toText = .ok n ∧ n.value = ⟨7, -100000⟩) ∧
      (Value.text (Value.number ⟨7, -100000⟩).asText).asNumber = .ok ⟨7, -100000⟩ :=
  ⟨by decide, asNumber_toText ⟨by decide, by decide, by decide, by decide⟩ (by decide)⟩

end TemplateExpr.Decimal
