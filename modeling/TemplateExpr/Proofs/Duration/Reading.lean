import TemplateExpr.Duration
import TemplateExpr.Proofs.Decimal.IntegerDivision
import TemplateExpr.Proofs.Numeral.Readers
/-!
Time limits as they are written. The number, the unit and the white space around them can be told apart in one way
only, since no number holds white space or a letter of a unit. The limit is the number in nanoseconds, cut downwards:
the products on the way are exact even where their scales are out of range, and so is the cut.
-/
namespace TemplateExpr.Duration

inductive Suffix where
  | none
  | seconds
  | milliseconds

namespace Suffix

def chars : Suffix → List Char
  | none => []
  | seconds => ['s']
  | milliseconds => ['m', 's']

def unit : Suffix → Decimal
  | none | seconds => .one
  | milliseconds => ⟨1, 3⟩

def nanoseconds : Suffix → ℚ
  | none | seconds => 10 ^ 9
  | milliseconds => 10 ^ 6

end Suffix

/-- The text is the number and the unit, with white space around both. -/
def Spells (number : List Char) (suffix : Suffix) (text : List Char) : Prop :=
  ∃ before between after, text = before ++ number ++ between ++ suffix.chars ++ after ∧
    (∀ c ∈ before, isBlank c = true) ∧ (∀ c ∈ between, isBlank c = true) ∧ ∀ c ∈ after, isBlank c = true

section Shape

variable {number between cs w : List Char} {suffix : Suffix}

/-- Characters that neither a unit nor white space has. -/
def Foreign (c : Char) : Prop := isBlank c = false ∧ c ≠ 'm' ∧ c ≠ 's'

theorem foreign_of_decimalChar {c : Char} (decimal : Numeral.IsDecimalChar c) : Foreign c := by
  rcases decimal with digit | rfl | rfl | rfl | rfl | rfl | rfl
  · refine ⟨isBlank_of_isDigit digit, ?_, ?_⟩ <;> rintro rfl <;> cases digit
  all_goals (unfold Foreign; decide)

theorem foreign_of_number {d : Decimal} (read : Decimal.ofChars? number = some d) :
    number ≠ [] ∧ ∀ c ∈ number, Foreign c := by
  obtain ⟨sign, m, e, _, rfl, _⟩ := Numeral.ofChars?_eq_some_iff.mp read
  constructor
  · obtain ⟨c, more, chars, _⟩ := Numeral.body_head (.decimal m e) []
    rw [List.append_nil] at chars
    simp [Numeral.Literal.chars, chars]
  · intro c mem
    apply foreign_of_decimalChar
    rcases List.mem_append.mp mem with signed | body
    · exact Numeral.isDecimalChar_of_sign signed
    · exact Numeral.isDecimalChar_of_body m e c body

theorem splitUnit_of_free (free : ∀ c ∈ w, c ≠ 'm' ∧ c ≠ 's') (suffix : Suffix) :
    splitUnit (w ++ suffix.chars) = (w, suffix.unit) := by
  have without {trail cs : List Char} (absent : ∀ front, cs ≠ front ++ trail) : dropTrail? trail cs = none :=
    Option.eq_none_iff_forall_ne_some.mpr fun front found => absent front (dropTrail?_eq_some_iff.mp found)
  unfold splitUnit
  cases suffix with
  | none =>
    have long : dropTrail? ['m', 's'] w = none :=
      without fun front same => (free 's' (by simp [same])).2 rfl
    have short : dropTrail? ['s'] w = none := without fun front same => (free 's' (by simp [same])).2 rfl
    simp [Suffix.chars, Suffix.unit, long, short]
  | seconds =>
    have long : dropTrail? ['m', 's'] (w ++ ['s']) = none := by
      refine without fun front same => (free 'm' ?_).1 rfl
      have inner : w = front ++ ['m'] := List.append_cancel_right (by simpa using same)
      simp [inner]
    simp [Suffix.chars, Suffix.unit, long, dropTrail?_eq_some_iff.mpr rfl]
  | milliseconds => simp [Suffix.chars, Suffix.unit, dropTrail?_eq_some_iff.mpr rfl]

theorem splitUnit_sound (cs : List Char) :
    ∃ suffix : Suffix, cs = (splitUnit cs).1 ++ suffix.chars ∧ (splitUnit cs).2 = suffix.unit := by
  unfold splitUnit
  split
  · rename_i number found
    exact ⟨.milliseconds, dropTrail?_eq_some_iff.mp found, rfl⟩
  · cases found : dropTrail? ['s'] cs with
    | none => exact ⟨.none, by simp [Suffix.chars], rfl⟩
    | some number => exact ⟨.seconds, dropTrail?_eq_some_iff.mp found, rfl⟩

theorem trimBlanks_of_spells (nonempty : number ≠ []) (foreign : ∀ c ∈ number, Foreign c)
    (spells : Spells number suffix cs) :
    ∃ between, trimBlanks cs = number ++ between ++ suffix.chars ∧ ∀ c ∈ between, isBlank c = true := by
  obtain ⟨before, between, after, rfl, front, middle, back⟩ := spells
  have first {rest : List Char} : ∀ c ∈ (number ++ rest).head?, isBlank c = false := by
    intro c head
    rw [List.head?_append_of_ne_nil _ nonempty] at head
    exact (foreign c (List.mem_of_mem_head? head)).1
  cases suffix with
  | none =>
    have trimmed : trimBlanks (before ++ number ++ (between ++ after)) = number :=
      trimBlanks_surrounded front (List.forall_mem_append.mpr ⟨middle, back⟩)
        (fun c head => (foreign c (List.mem_of_mem_head? head)).1)
        fun c last => (foreign c (List.mem_of_getLast? last)).1
    exact ⟨[], by simpa [Suffix.chars] using trimmed, nofun⟩
  | seconds =>
    have trimmed : trimBlanks (before ++ (number ++ (between ++ ['s'])) ++ after) = number ++ (between ++ ['s']) :=
      trimBlanks_surrounded front back first (by simp; decide)
    exact ⟨between, by simpa [Suffix.chars] using trimmed, middle⟩
  | milliseconds =>
    have trimmed : trimBlanks (before ++ (number ++ (between ++ ['m', 's'])) ++ after) =
        number ++ (between ++ ['m', 's']) := trimBlanks_surrounded front back first (by simp; decide)
    exact ⟨between, by simpa [Suffix.chars] using trimmed, middle⟩

theorem spells_of_read : ∃ suffix, Spells (trimBlanks (splitUnit (trimBlanks cs)).1) suffix cs := by
  obtain ⟨before, after, whole, front, back⟩ := exists_trimBlanks cs
  obtain ⟨suffix, split, _⟩ := splitUnit_sound (trimBlanks cs)
  obtain ⟨before', between, inner, front', middle⟩ := exists_trimBlanks (splitUnit (trimBlanks cs)).1
  generalize (splitUnit (trimBlanks cs)).1 = w at split inner ⊢
  refine ⟨suffix, before ++ before', between, after, ?_, List.forall_mem_append.mpr ⟨front, front'⟩, middle, back⟩
  conv_lhs => rw [whole, split, inner]
  simp

end Shape

section Value

variable {d : Decimal}

theorem scale_of_zero_product {a b : Decimal} (zero : (a.mul b).unscaled = 0) : (a.mul b).scale = 0 := by
  by_cases product : a.unscaled * b.unscaled = 0
  · rw [Decimal.mul, product, Decimal.normalize_zero]
  · obtain ⟨zeros, digits, _⟩ := Decimal.normalize_strips (a.scale + b.scale) product
    rw [← Decimal.mul, zero, Int.zero_mul] at digits
    exact absurd digits product

theorem bound_of_long (plain : d.unscaled = 0 → d.scale = 0) (nonneg : 0 ≤ d.toRat) (long : 20 < d.integerDigits) :
    2 ^ 64 ≤ ⌊d.toRat⌋ := by
  have nonzero : d.unscaled ≠ 0 := by
    intro zero
    rw [Decimal.integerDigits_of_zero plain zero] at long
    omega
  have least : (10 : ℚ) ^ (20 : ℤ) ≤ d.toRat := by
    rw [← abs_of_nonneg nonneg]
    exact (Decimal.lt_integerDigits_iff nonzero 20).mp long
  rw [Int.le_floor]
  push_cast
  norm_num at least ⊢
  linarith

theorem nanoseconds?_eq (plain : d.unscaled = 0 → d.scale = 0) (nonneg : 0 ≤ d.toRat) :
    nanoseconds? d = if ⌊d.toRat⌋ < 2 ^ 64 then some ⌊d.toRat⌋.toNat else none := by
  have cut : d.trunc = ⌊d.toRat⌋ := by
    rw [Decimal.trunc_eq_towardsZero, Decimal.towardsZero, if_pos nonneg]
  have power : twoPow 64 = 2 ^ 64 := rfl
  rw [nanoseconds?, cut, power]
  split
  · rename_i long
    rw [if_neg (not_lt.mpr (bound_of_long plain nonneg long))]
  · have floor_nonneg : 0 ≤ ⌊d.toRat⌋ := Int.floor_nonneg.mpr nonneg
    have same : ⌊d.toRat⌋.toNat < 2 ^ 64 ↔ ⌊d.toRat⌋ < 2 ^ 64 := by omega
    simp only [same]

theorem toRat_product (amount : Decimal) (suffix : Suffix) :
    ((amount.mul suffix.unit).mul giga).toRat = amount.toRat * suffix.nanoseconds := by
  have unit : suffix.unit.toRat * 10 ^ 9 = suffix.nanoseconds := by
    cases suffix <;> norm_num [Suffix.unit, Suffix.nanoseconds, Decimal.toRat, Decimal.one]
  have nanos : giga.toRat = 10 ^ 9 := by
    rw [giga, Decimal.toRat_ofInt]
    norm_num
  rw [Decimal.toRat_mul, Decimal.toRat_mul, nanos, mul_assoc, unit]

theorem nanoseconds_pos (suffix : Suffix) : 0 < suffix.nanoseconds := by
  cases suffix <;> norm_num [Suffix.nanoseconds]

end Value

theorem ofText?_of_spells {text : String} {number : List Char} {amount : Decimal} {suffix : Suffix}
    (read : Decimal.ofChars? number = some amount) (spells : Spells number suffix text.toList) :
    ofText? text =
      if amount.toRat < 0 then .error (.negative (trimText text))
      else if ⌊amount.toRat * suffix.nanoseconds⌋ < 2 ^ 64 then .ok ⌊amount.toRat * suffix.nanoseconds⌋.toNat
      else .error (.tooLong (trimText text)) := by
  obtain ⟨nonempty, foreign⟩ := foreign_of_number read
  obtain ⟨between, trimmed, blank⟩ := trimBlanks_of_spells nonempty foreign spells
  have free : ∀ c ∈ number ++ between, c ≠ 'm' ∧ c ≠ 's' := by
    intro c mem
    rcases List.mem_append.mp mem with digit | space
    · exact (foreign c digit).2
    · constructor <;> rintro rfl <;> cases blank _ space
  have inner : trimBlanks ([] ++ number ++ between) = number :=
    trimBlanks_surrounded nofun blank (fun c head => (foreign c (List.mem_of_mem_head? head)).1)
      fun c last => (foreign c (List.mem_of_getLast? last)).1
  have negative : amount.IsNegative ↔ amount.toRat < 0 := by
    rw [← not_le, Decimal.toRat_nonneg_iff, Decimal.IsNegative, not_le]
  rw [List.nil_append] at inner
  rw [ofText?, trimText, trimmed, splitUnit_of_free free]
  dsimp only
  rw [inner, read]
  simp only [negative]
  split
  · rfl
  · rename_i nonneg
    have product := toRat_product amount suffix
    have above : 0 ≤ ((amount.mul suffix.unit).mul giga).toRat := by
      rw [product]
      exact mul_nonneg (not_lt.mp nonneg) (nanoseconds_pos suffix).le
    rw [nanoseconds?_eq scale_of_zero_product above, product]
    by_cases fits : ⌊amount.toRat * suffix.nanoseconds⌋ < 2 ^ 64
    · rw [if_pos fits, if_pos fits]
    · rw [if_neg fits, if_neg fits]

/-- A time limit is read exactly. Of a number with a unit, or without one, and white space wherever it may be, it is
the number in nanoseconds, cut downwards; a number below zero is refused, however small, and so is what does not fit
into 64 bits. Every other text is none. -/
theorem ofText?_exact (text : String) :
    (∀ number amount suffix, Decimal.ofText? number = some amount → Spells number.toList suffix text.toList →
      (amount.toRat < 0 → ofText? text = .error (.negative (trimText text))) ∧
      (0 ≤ amount.toRat → ∀ count : Nat, ⌊amount.toRat * suffix.nanoseconds⌋ = count → count < 2 ^ 64 →
        ofText? text = .ok count) ∧
      (0 ≤ amount.toRat → 2 ^ 64 ≤ ⌊amount.toRat * suffix.nanoseconds⌋ →
        ofText? text = .error (.tooLong (trimText text)))) ∧
    ((¬ ∃ number amount suffix, Decimal.ofText? number = some amount ∧ Spells number.toList suffix text.toList) →
      ofText? text = .error (.notDuration (trimText text))) := by
  constructor
  · intro number amount suffix read spells
    rw [ofText?_of_spells read spells]
    refine ⟨fun negative => if_pos negative, fun nonneg count cut fits => ?_, fun nonneg large => ?_⟩
    · rw [if_neg (not_lt.mpr nonneg), cut, if_pos (by exact_mod_cast fits), Int.toNat_natCast]
    · rw [if_neg (not_lt.mpr nonneg), if_neg (not_lt.mpr large)]
  · intro other
    cases read : Decimal.ofChars? (trimBlanks (splitUnit (trimBlanks text.toList)).1) with
    | none =>
      rw [ofText?]
      dsimp only
      rw [read]
      rfl
    | some amount =>
      obtain ⟨suffix, spells⟩ := @spells_of_read text.toList
      rw [← String.toList_ofList (l := trimBlanks _)] at spells
      refine absurd ⟨_, amount, suffix, ?_, spells⟩ other
      rwa [Decimal.ofText?, String.toList_ofList]

-- The scale of the product is below the least one.
example : ofText? "1e2147483648 s" = .error (.tooLong "1e2147483648 s") := by decide +kernel

example : ofText? " 18446744073709.551615999ms\t" = .ok 18446744073709551615 := by decide +kernel

end TemplateExpr.Duration
