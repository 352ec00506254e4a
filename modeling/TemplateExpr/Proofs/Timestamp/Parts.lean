import TemplateExpr.Timestamp.Text
import TemplateExpr.Proofs.Text.CharClass
/-!
The parts of written timestamps: fields of a fixed number of digits, separators, the minutes of a zone, the fraction
without its trailing zeros.
-/
namespace TemplateExpr

theorem isScriptDigit_of_isDigit {c : Char} (digit : c.isDigit = true) : isScriptDigit c = true := by
  have ascii := isDigit_iff.mp digit
  have zero : (0x30 : Nat) ∈ scriptZeros := List.mem_cons_self
  refine List.any_eq_true.mpr ⟨0x30, zero, ?_⟩
  rw [Bool.and_eq_true, decide_eq_true_eq, decide_eq_true_eq]
  omega

theorem isBlank_of_isScriptDigit {c : Char} (digit : isScriptDigit c = true) : isBlank c = false := by
  have apart : ∀ n ∈ [9, 10, 11, 12, 13, 0x20, 0x85, 0xA0, 0x1680, 0x2000, 0x2001, 0x2002, 0x2003, 0x2004, 0x2005,
      0x2006, 0x2007, 0x2008, 0x2009, 0x200A, 0x2028, 0x2029, 0x202F, 0x205F, 0x3000],
      scriptZeros.any (fun first => first ≤ n && n < first + 10) = false := by decide
  rw [Bool.eq_false_iff]
  intro blank
  refine absurd digit (Bool.eq_false_iff.mp (apart c.toNat ?_))
  simp only [isBlank, Bool.or_eq_true, Bool.and_eq_true, decide_eq_true_eq, beq_iff_eq] at blank
  simp only [List.mem_cons, List.not_mem_nil, or_false]
  omega

namespace Timestamp

theorem isRun_padded (width n : Nat) : Digits.IsRun (padded width n) := by
  refine ⟨fun none => Nat.toDigits_ne_nil (List.append_eq_nil_iff.mp none).2, fun c mem => ?_⟩
  rcases List.mem_append.mp mem with zero | digit
  · rw [(List.mem_replicate.mp zero).2]
    rfl
  · exact Nat.isDigit_of_mem_toDigits (by decide) (by decide) digit

theorem value_padded (width n : Nat) : Digits.value (padded width n) = n := by
  rw [Digits.value_eq_ofDigitChars (isRun_padded width n).2, padded, Nat.ofDigitChars_append,
    Nat.ofDigitChars_replicate_zero, Nat.mul_zero, Nat.ofDigitChars_ten_toDigits]

theorem length_padded {width n : Nat} (positive : 0 < width) (bound : n < tenPow width) :
    (padded width n).length = width := by
  have few := (Nat.length_toDigits_le_iff (b := 10) (by decide) positive).mpr bound
  rw [padded, List.length_append, List.length_replicate]
  omega

theorem dropSeparator_of_mem {allowed : List Char} {c : Char} (mem : c ∈ allowed) (rest : List Char) :
    dropSeparator allowed (c :: rest) = rest := if_pos mem

theorem dropSeparator_of_not_mem {allowed : List Char} {c : Char} (other : c ∉ allowed) (rest : List Char) :
    dropSeparator allowed (c :: rest) = c :: rest := if_neg other

theorem zoneMinutes?_digits {a b : Char} (first : a.isDigit = true) (second : b.isDigit = true) :
    zoneMinutes? [a, b] = Digits.run? [a, b] := by
  have one (c : Char) (digit : c.isDigit = true) : c.utf8Size = 1 := by
    have ascii := isDigit_iff.mp digit
    rw [Char.utf8Size_eq_one_iff, UInt32.le_iff_toNat_le]
    exact Nat.le_trans ascii.2 (by decide)
  exact if_pos (Or.inl ⟨one a first, one b second⟩)

section Fraction

theorem restore_zeros (cs : List Char) :
    (cs.reverse.dropWhile (· == '0')).reverse ++
      List.replicate (cs.length - (cs.reverse.dropWhile (· == '0')).reverse.length) '0' = cs := by
  have split := List.takeWhile_append_dropWhile (p := (· == '0')) (l := cs.reverse)
  have zeros : cs.reverse.takeWhile (· == '0') =
      List.replicate (cs.reverse.takeWhile (· == '0')).length '0' :=
    List.eq_replicate_iff.mpr
      ⟨rfl, fun c mem => beq_iff_eq.mp (List.all_eq_true.mp List.all_takeWhile c mem)⟩
  have count := congrArg List.length split
  rw [List.length_append, List.length_reverse] at count
  have cut : cs.length - (cs.reverse.dropWhile (· == '0')).reverse.length =
      (cs.reverse.takeWhile (· == '0')).length := by
    rw [List.length_reverse]
    omega
  rw [cut, ← List.reverse_replicate, ← zeros, ← List.reverse_append, split, List.reverse_reverse]

def fractionDigits (nanos : Nat) : List Char := ((padded 9 nanos).reverse.dropWhile (· == '0')).reverse

variable {nanos : Nat}

theorem fractionDigits_filled (bound : nanos < tenPow 9) :
    fractionDigits nanos ++ List.replicate (9 - (fractionDigits nanos).length) '0' = padded 9 nanos := by
  have filled := restore_zeros (padded 9 nanos)
  rwa [length_padded (by decide) bound] at filled

theorem value_fractionDigits (bound : nanos < tenPow 9) :
    Digits.value (fractionDigits nanos ++ List.replicate (9 - (fractionDigits nanos).length) '0') = nanos := by
  rw [fractionDigits_filled bound, value_padded]

theorem length_fractionDigits (bound : nanos < tenPow 9) : (fractionDigits nanos).length ≤ 9 := by
  have length := congrArg List.length (fractionDigits_filled bound)
  rw [List.length_append, length_padded (by decide) bound] at length
  omega

theorem fractionDigits_eq_nil_iff (bound : nanos < tenPow 9) : fractionDigits nanos = [] ↔ nanos = 0 := by
  constructor
  · intro none
    have value := value_fractionDigits bound
    rw [none] at value
    exact value.symm
  · rintro rfl
    decide

theorem isDigit_of_mem_fractionDigits {c : Char} (mem : c ∈ fractionDigits nanos) : c.isDigit = true := by
  refine (isRun_padded 9 nanos).2 c ?_
  have kept := (List.dropWhile_sublist _).subset (List.mem_reverse.mp mem)
  exact List.mem_reverse.mp kept

end Fraction

end Timestamp

end TemplateExpr
