import TemplateExpr.Value.Basic
import TemplateExpr.Proofs.Decimal.Order
import TemplateExpr.Proofs.Text.CodePoints
import TemplateExpr.Proofs.Timestamp.Order
/-!
One order behind the arms of the comparison. A text makes both sides texts, ordered by their code points; any other two
values are ordered as the numbers they stand for, whichever arm compares them. The exception are dates in leap seconds,
which have the numbers of the second after and come before it. Values that are not text are therefore in a total
preorder, as long as no date overtakes another one or there are only dates.
-/
namespace TemplateExpr

theorem Timestamp.compare_toSeconds (t u : Timestamp) :
    t.toSeconds.compare u.toSeconds = cmp t.instant u.instant := by
  have unit : (0 : ℚ) < 10 ^ (-(9 : Int)) := by norm_num
  rw [Decimal.compare_eq_cmp, toSeconds, toSeconds, Decimal.toRat_normalize, Decimal.toRat_normalize,
    cmp_mul_pos_right unit, Int.cast_strictMono.cmp_map_eq]

namespace Value

variable {a b c : Value}

theorem compare_of_text (text : a.kind = .text ∨ b.kind = .text) :
    a.compare b = Ord.compare a.asText b.asText := by
  cases a <;> cases b <;> simp_all [compare, kind, asText]

def magnitude : Value → Decimal
  | text _ => .zero
  | number n => n
  | logic b => if b then .one else .zero
  | date t => t.toSeconds

theorem asNumber_of_not_text (other : a.kind ≠ .text) : a.asNumber = .ok a.magnitude := by
  cases a <;> simp_all [asNumber, kind, magnitude]

theorem compare_logic (b c : Bool) :
    Ord.compare b c = (magnitude (logic b)).compare (magnitude (logic c)) := by
  cases b <;> cases c <;> rfl

/-- Dates of which the first comes before the second, but not by the number. -/
def Overtakes : Value → Value → Prop
  | date t, date u => t.Overtakes u
  | _, _ => False

/-- No date overtakes another one, both being among the values. -/
def InStep (values : List Value) : Prop := ∀ a ∈ values, ∀ b ∈ values, ¬ a.Overtakes b

theorem compare_of_not_text (ha : a.kind ≠ .text) (hb : b.kind ≠ .text) :
    a.compare b = a.magnitude.compare b.magnitude ↔ ¬ a.Overtakes b ∧ ¬ b.Overtakes a := by
  cases a with
  | date t =>
    cases b with
    | date u =>
      change t.compare u = t.toSeconds.compare u.toSeconds ↔ _
      rw [Timestamp.compare_toSeconds]
      exact Timestamp.compare_eq_cmp_instant_iff
    | _ => simp_all [compare, kind, asNumber, magnitude, Overtakes]
  | _ => cases b <;> simp_all [compare, kind, asNumber, magnitude, compare_logic, Overtakes]

theorem compare_eq_cmp (ha : a.kind ≠ .text) (hb : b.kind ≠ .text) (apart : ¬ a.Overtakes b ∧ ¬ b.Overtakes a) :
    a.compare b = cmp a.magnitude.toRat b.magnitude.toRat := by
  rw [(compare_of_not_text ha hb).mpr apart, Decimal.compare_eq_cmp]

theorem exists_date (a_date : a.kind = .date) : ∃ t, a = date t := by
  cases a with
  | date t => exact ⟨t, rfl⟩
  | _ => cases a_date

theorem dates_of_overtakes (ahead : a.Overtakes b) : a.kind = .date ∧ b.kind = .date := by
  cases a with
  | date t =>
    cases b with
    | date u => exact ⟨rfl, rfl⟩
    | _ => exact ahead.elim
  | _ => exact ahead.elim

theorem compare_swap (a b : Value) : (a.compare b).swap = b.compare a := by
  by_cases text : a.kind = .text ∨ b.kind = .text
  · rw [compare_of_text text, compare_of_text text.symm, ← cmp_eq_compare, cmp_swap, cmp_eq_compare]
  · obtain ⟨ha, hb⟩ := not_or.mp text
    by_cases dates : a.kind = .date ∧ b.kind = .date
    · obtain ⟨t, rfl⟩ := exists_date dates.1
      obtain ⟨u, rfl⟩ := exists_date dates.2
      exact Timestamp.compare_swap t u
    · have apart : ¬ a.Overtakes b ∧ ¬ b.Overtakes a :=
        ⟨fun ahead => dates (dates_of_overtakes ahead), fun ahead => dates (dates_of_overtakes ahead).symm⟩
      rw [compare_eq_cmp ha hb apart, compare_eq_cmp hb ha apart.symm, cmp_swap]

theorem compare_self (a : Value) : a.compare a = .eq := by
  have same := compare_swap a a
  cases order : a.compare a with
  | eq => rfl
  | lt =>
    rw [order] at same
    cases same
  | gt =>
    rw [order] at same
    cases same

theorem compare_ne_gt_or (a b : Value) : a.compare b ≠ .gt ∨ b.compare a ≠ .gt := by
  rw [← compare_swap a b]
  cases a.compare b <;> simp

theorem compare_ne_gt_iff (ha : a.kind ≠ .text) (hb : b.kind ≠ .text)
    (apart : ¬ a.Overtakes b ∧ ¬ b.Overtakes a) :
    a.compare b ≠ .gt ↔ a.magnitude.toRat ≤ b.magnitude.toRat := by
  rw [compare_eq_cmp ha hb apart, ne_eq, cmp_eq_gt_iff, not_lt]

theorem compare_trans_of_inStep (ha : a.kind ≠ .text) (hb : b.kind ≠ .text) (hc : c.kind ≠ .text)
    (inStep : InStep [a, b, c]) (first : a.compare b ≠ .gt) (second : b.compare c ≠ .gt) : a.compare c ≠ .gt := by
  have apart {x y : Value} (hx : x ∈ [a, b, c]) (hy : y ∈ [a, b, c]) : ¬ x.Overtakes y ∧ ¬ y.Overtakes x :=
    ⟨inStep x hx y hy, inStep y hy x hx⟩
  rw [compare_ne_gt_iff ha hb (apart (by simp) (by simp))] at first
  rw [compare_ne_gt_iff hb hc (apart (by simp) (by simp))] at second
  rw [compare_ne_gt_iff ha hc (apart (by simp) (by simp))]
  exact first.trans second

theorem compare_trans_of_dates (dates : ∀ v ∈ [a, b, c], v.kind = .date) (first : a.compare b ≠ .gt)
    (second : b.compare c ≠ .gt) : a.compare c ≠ .gt := by
  obtain ⟨s, rfl⟩ := exists_date (dates a (by simp))
  obtain ⟨t, rfl⟩ := exists_date (dates b (by simp))
  obtain ⟨u, rfl⟩ := exists_date (dates c (by simp))
  exact Timestamp.compare_trans first second

/-- The comparison of any two values is the reverse of the comparison the other way round. With a text on either side
it is the order of the texts by code points, which is that of their bytes in UTF-8. Of two other values it is the order
of the numbers they convert to, unless one is a date in a leap second and overtakes the other. It is a total preorder of
values that are not text, if none of them overtakes another or all of them are dates. -/
theorem comparison_coherent (a b : Value) :
    a.compare b = (b.compare a).swap ∧
    (a.kind = .text ∨ b.kind = .text →
      (a.compare b = .lt ↔ codePoints a.asText < codePoints b.asText) ∧
      (a.compare b = .lt ↔ utf8 a.asText < utf8 b.asText) ∧
      (a.compare b = .eq ↔ a.asText = b.asText)) ∧
    (a.kind ≠ .text → b.kind ≠ .text →
      ∃ m n, a.asNumber = .ok m ∧ b.asNumber = .ok n ∧ m.compare n = cmp m.toRat n.toRat ∧
        (a.compare b = m.compare n ↔ ¬ a.Overtakes b ∧ ¬ b.Overtakes a)) ∧
    a.compare a = .eq ∧
    (a.compare b ≠ .gt ∨ b.compare a ≠ .gt) ∧
    ∀ c : Value, a.kind ≠ .text → b.kind ≠ .text → c.kind ≠ .text →
      InStep [a, b, c] ∨ (∀ v ∈ [a, b, c], v.kind = .date) →
      a.compare b ≠ .gt → b.compare c ≠ .gt → a.compare c ≠ .gt := by
  refine ⟨(compare_swap b a).symm, fun text => ?_, fun ha hb => ?_, compare_self a, compare_ne_gt_or a b, ?_⟩
  · rw [compare_of_text text, compare_lt_iff_lt, compare_eq_iff_eq, codePoints_lt_iff, utf8_lt_iff]
    exact ⟨Iff.rfl, Iff.rfl, Iff.rfl⟩
  · exact ⟨_, _, asNumber_of_not_text ha, asNumber_of_not_text hb, Decimal.compare_eq_cmp _ _, compare_of_not_text ha hb⟩
  · rintro c ha hb hc (inStep | dates) first second
    · exact compare_trans_of_inStep ha hb hc inStep first second
    · exact compare_trans_of_dates dates first second

/-- The last leap second of 2016: half of it comes before a fifth of the next second and has the greater number, and
with a number between the two the order goes round in a circle. -/
theorem comparison_in_leap_second :
    let a := date ⟨1483228800500000000, { offset := 0, leap := true }⟩
    let b := date ⟨1483228800200000000, 0⟩
    let c := number ⟨14832288003, 1⟩
    a.asText = "2016-12-31T23:59:60.5+00:00" ∧ b.asText = "2017-01-01T00:00:00.2+00:00" ∧
      a.asNumber = .ok ⟨14832288005, 1⟩ ∧ b.asNumber = .ok ⟨14832288002, 1⟩ ∧
      a.compare b = .lt ∧ Decimal.compare ⟨14832288005, 1⟩ ⟨14832288002, 1⟩ = .gt ∧
      b.compare c = .lt ∧ c.compare a = .lt := by
  decide +kernel

end Value

end TemplateExpr
