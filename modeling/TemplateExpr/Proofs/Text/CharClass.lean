import TemplateExpr.Text.Blank
import TemplateExpr.Text.Digits
/-!
Classes of characters as intervals of their numbers, and texts without white space, which trimming leaves as
they are.
-/
namespace TemplateExpr

theorem isUpper_iff {c : Char} : c.isUpper = true ↔ 65 ≤ c.toNat ∧ c.toNat ≤ 90 := by
  have decided : c.isUpper = decide (65 ≤ c.val ∧ c.val ≤ 90) := rfl
  rw [decided, decide_eq_true_eq, UInt32.le_iff_toNat_le, UInt32.le_iff_toNat_le]
  rfl

theorem isLower_iff {c : Char} : c.isLower = true ↔ 97 ≤ c.toNat ∧ c.toNat ≤ 122 := by
  have decided : c.isLower = (decide (97 ≤ c.val) && decide (c.val ≤ 122)) := rfl
  rw [decided, Bool.and_eq_true, decide_eq_true_eq, decide_eq_true_eq, UInt32.le_iff_toNat_le,
    UInt32.le_iff_toNat_le]
  rfl

theorem isDigit_iff {c : Char} : c.isDigit = true ↔ 48 ≤ c.toNat ∧ c.toNat ≤ 57 :=
  Char.isDigit_iff_toNat

theorem isAlpha_iff {c : Char} :
    c.isAlpha = true ↔ 65 ≤ c.toNat ∧ c.toNat ≤ 90 ∨ 97 ≤ c.toNat ∧ c.toNat ≤ 122 := by
  have either : c.isAlpha = (c.isUpper || c.isLower) := rfl
  rw [either, Bool.or_eq_true, isUpper_iff, isLower_iff]

theorem isAlphanum_iff {c : Char} :
    c.isAlphanum = true ↔
      65 ≤ c.toNat ∧ c.toNat ≤ 90 ∨ 97 ≤ c.toNat ∧ c.toNat ≤ 122 ∨ 48 ≤ c.toNat ∧ c.toNat ≤ 57 := by
  rw [Char.isAlphanum, Bool.or_eq_true, isAlpha_iff, isDigit_iff, or_assoc]

theorem toNat_toLower (c : Char) :
    c.toLower.toNat = if 65 ≤ c.toNat ∧ c.toNat ≤ 90 then c.toNat + 32 else c.toNat := by
  unfold Char.toLower
  split
  · rename_i upper
    simp only [ge_iff_le, UInt32.le_iff_toNat_le] at upper
    have bounds : 65 ≤ c.toNat ∧ c.toNat ≤ 90 := upper
    rw [if_pos bounds, Char.toNat_mk, UInt32.toNat_add]
    have small : c.val.toNat = c.toNat := rfl
    have step : ('a'.val - 'A'.val).toNat = 32 := by decide
    omega
  · rename_i other
    simp only [ge_iff_le, UInt32.le_iff_toNat_le] at other
    exact (if_neg other).symm

theorem eq_or_eq_of_toLower {c small capital : Char} (h : c.toLower = small)
    (pair : small.toNat = capital.toNat + 32) : c = small ∨ c = capital := by
  have number := congrArg Char.toNat h
  rw [toNat_toLower] at number
  split at number
  · exact Or.inr (Char.toNat_inj.mp (by omega))
  · exact Or.inl (Char.toNat_inj.mp number)

theorem isBlank_of_isDigit {c : Char} (digit : c.isDigit = true) : isBlank c = false := by
  have ascii := isDigit_iff.mp digit
  simp only [isBlank, Bool.or_eq_false_iff, Bool.and_eq_false_iff, decide_eq_false_iff_not, beq_eq_false_iff_ne]
  omega

theorem trimBlanks_surrounded {before core after : List Char} (front : ∀ c ∈ before, isBlank c = true)
    (back : ∀ c ∈ after, isBlank c = true) (first : ∀ c ∈ core.head?, isBlank c = false)
    (last : ∀ c ∈ core.getLast?, isBlank c = false) : trimBlanks (before ++ core ++ after) = core := by
  have stops {p : Char → Bool} {cs : List Char} (head : ∀ c ∈ cs.head?, p c = false) : cs.dropWhile p = cs := by
    cases cs with
    | nil => rfl
    | cons c cs => exact List.dropWhile_cons_of_neg (by simp [head c rfl])
  have trailing : dropTrailingBlanks (core ++ after) = core := by
    rw [dropTrailingBlanks, List.reverse_append,
      List.dropWhile_append_of_pos fun c mem => back c (List.mem_reverse.mp mem), stops, List.reverse_reverse]
    rwa [List.head?_reverse]
  rw [trimBlanks, List.append_assoc, dropBlanks, List.dropWhile_append_of_pos front]
  cases core with
  | nil =>
    have nothing : (after ++ []).dropWhile isBlank = [] := List.dropWhile_append_of_pos back
    rw [List.append_nil] at nothing
    rw [List.nil_append, nothing]
    rfl
  | cons c core =>
    have front : (c :: core ++ after).dropWhile isBlank = c :: core ++ after := stops first
    rw [front, trailing]

theorem exists_trimBlanks (cs : List Char) : ∃ before after, cs = before ++ trimBlanks cs ++ after ∧
    (∀ c ∈ before, isBlank c = true) ∧ ∀ c ∈ after, isBlank c = true := by
  have front := List.takeWhile_append_dropWhile (p := isBlank) (l := cs)
  have back := List.takeWhile_append_dropWhile (p := isBlank) (l := (dropBlanks cs).reverse)
  refine ⟨cs.takeWhile isBlank, ((dropBlanks cs).reverse.takeWhile isBlank).reverse, ?_, ?_, ?_⟩
  · rw [trimBlanks, dropTrailingBlanks, List.append_assoc, ← List.reverse_append, back, List.reverse_reverse]
    exact front.symm
  · exact List.all_eq_true.mp List.all_takeWhile
  · exact fun c mem => List.all_eq_true.mp List.all_takeWhile c (List.mem_reverse.mp mem)

theorem trimBlanks_of_sound {cs : List Char} (sound : ∀ c ∈ cs, isBlank c = false) : trimBlanks cs = cs := by
  have whole : trimBlanks ([] ++ cs ++ []) = cs := trimBlanks_surrounded nofun nofun
    (fun c head => sound c (List.mem_of_mem_head? head)) fun c last => sound c (List.mem_of_getLast? last)
  rwa [List.nil_append, List.append_nil] at whole

theorem trimBlanks_append {c : Char} {cs blanks : List Char} (first : ∀ d ∈ (cs ++ [c]).head?, isBlank d = false)
    (last : isBlank c = false) (blank : ∀ d ∈ blanks, isBlank d = true) :
    trimBlanks (cs ++ [c] ++ blanks) = cs ++ [c] := by
  have whole : trimBlanks ([] ++ (cs ++ [c]) ++ blanks) = cs ++ [c] :=
    trimBlanks_surrounded nofun blank first (by simp [last])
  exact whole

namespace Digits

theorem digit?_eq (c : Char) :
    digit? c =
      if 48 ≤ c.toNat ∧ c.toNat ≤ 57 then some (c.toNat - 48)
      else if 97 ≤ c.toNat ∧ c.toNat ≤ 102 then some (c.toNat - 87)
      else if 65 ≤ c.toNat ∧ c.toNat ≤ 70 then some (c.toNat - 55)
      else none := by
  simp only [digit?, isDigit_iff, Char.le_def, UInt32.le_iff_toNat_le]
  rfl

theorem isDigitOf_ten (c : Char) : isDigitOf 10 c = c.isDigit := by
  rw [Bool.eq_iff_iff, isDigit_iff, isDigitOf, digit?_eq]
  split
  · simp only [Option.any_some, decide_eq_true_eq]
    omega
  · split
    · simp only [Option.any_some, decide_eq_true_eq]
      omega
    · split
      · simp only [Option.any_some, decide_eq_true_eq]
        omega
      · simp only [Option.any_none, Bool.false_eq_true, false_iff]
        omega

theorem value_lt {cs : List Char} (digits : ∀ c ∈ cs, c.isDigit = true) : value cs < tenPow cs.length := by
  rw [value, valueIn_eq_foldl]
  induction cs with
  | nil => exact Nat.one_pos
  | cons c cs ih =>
    have first := digits c List.mem_cons_self
    have small : push 10 0 c ≤ 9 := by
      have ascii := isDigit_iff.mp first
      rw [push, digit?, if_pos first, Option.getD_some]
      omega
    have rest := ih fun d mem => digits d (List.mem_cons_of_mem _ mem)
    have high : push 10 0 c * tenPow cs.length ≤ 9 * tenPow cs.length := Nat.mul_le_mul_right _ small
    rw [List.foldl_cons, foldl_push, List.length_cons, tenPow_succ]
    change push 10 0 c * tenPow cs.length + _ < _
    omega

theorem isRun_of_run? {cs : List Char} {n : Nat} (read : run? cs = some n) : IsRun cs ∧ value cs = n := by
  unfold run? at read
  split at read
  · rename_i run
    exact ⟨run, Option.some.inj read⟩
  · cases read

theorem run?_eq_some_iff {cs : List Char} {n : Nat} :
    run? cs = some n ↔ IsRun cs ∧ value cs = n := by
  constructor
  · exact isRun_of_run?
  · rintro ⟨run, rfl⟩
    exact if_pos run

theorem isAlphanum_of_isDigitOf {base : Nat} {c : Char} (h : isDigitOf base c = true) :
    c.isAlphanum = true := by
  rw [isAlphanum_iff]
  rw [isDigitOf, digit?_eq] at h
  split at h
  · omega
  · split at h
    · omega
    · split at h
      · omega
      · cases h

end Digits

end TemplateExpr
