import TemplateExpr.Decimal.Basic
import Mathlib.Data.Rat.Cast.Order
import Mathlib.Tactic.FieldSimp
import Mathlib.Tactic.Ring
/-!
The rational number that a decimal denotes, and the normal form. Normalizing keeps the number and is the only
way to strip trailing zeros as far as the least scale allows; so a normal decimal comes back from its digits
with any number of zeros put behind them.
-/
namespace TemplateExpr.Decimal

def toRat (d : Decimal) : ℚ := d.unscaled * 10 ^ (-d.scale)

theorem cast_tenPow (n : Nat) : ((tenPow n : Nat) : ℚ) = 10 ^ n := by
  induction n with
  | zero => simp [tenPow_zero]
  | succ n ih =>
    rw [tenPow_succ, Nat.cast_mul, ih, pow_succ]
    norm_num

theorem toRat_of_strips {unscaled scale : Int} {d : Decimal} (h : Strips unscaled scale d) :
    d.toRat = unscaled * 10 ^ (-scale) := by
  obtain ⟨zeros, value, place, _, _⟩ := h
  rw [toRat, value, place, Int.cast_mul, Int.cast_natCast, cast_tenPow, neg_add,
    zpow_add₀ (by norm_num), zpow_neg _ (zeros : Int), zpow_natCast]
  field_simp

theorem toRat_normalize (unscaled scale : Int) :
    (normalize unscaled scale).toRat = unscaled * 10 ^ (-scale) := by
  by_cases zero : unscaled = 0
  · simp [zero, normalize_zero, toRat]
  · exact toRat_of_strips (normalize_strips scale zero)

theorem checked_eq_ok {unscaled scale : Int} {d : Decimal} (h : checked unscaled scale = .ok d) :
    d = normalize unscaled scale ∧ minScale ≤ d.scale ∧ d.scale ≤ maxScale := by
  rw [checked] at h
  split at h
  · rename_i range
    cases h
    exact ⟨rfl, range⟩
  · cases h

theorem toRat_checked {unscaled scale : Int} {d : Decimal} (h : checked unscaled scale = .ok d) :
    d.toRat = unscaled * 10 ^ (-scale) := by
  rw [(checked_eq_ok h).1]
  exact toRat_normalize unscaled scale

theorem strips_no_fewer {d e : Decimal} {m n : Nat} (value : d.unscaled * tenPow m = e.unscaled * tenPow n)
    (place : d.scale + m = e.scale + n) (least : n = 0 ∨ minScale ≤ e.scale)
    (last : minScale < d.scale → d.unscaled % 10 ≠ 0) : n ≤ m := by
  refine Nat.le_of_not_lt fun fewer => ?_
  obtain ⟨k, rfl⟩ : ∃ k, n = m + (k + 1) := ⟨n - m - 1, by omega⟩
  have pos : (0 : Int) < tenPow m := by exact_mod_cast tenPow_pos m
  have tens : d.unscaled = e.unscaled * tenPow k * 10 := by
    apply Int.eq_of_mul_eq_mul_right (Int.ne_of_gt pos)
    rw [value, tenPow_add, tenPow_succ]
    push_cast
    ring
  refine last (by omega) ?_
  rw [tens]
  exact Int.mul_emod_left _ 10

theorem strips_unique {unscaled scale : Int} {d e : Decimal} (hd : Strips unscaled scale d)
    (he : Strips unscaled scale e) : d = e := by
  obtain ⟨m, valueD, placeD, leastD, lastD⟩ := hd
  obtain ⟨n, valueE, placeE, leastE, lastE⟩ := he
  have value := valueD.symm.trans valueE
  have place := placeD.symm.trans placeE
  have same : m = n :=
    Nat.le_antisymm (strips_no_fewer value.symm place.symm leastD lastE)
      (strips_no_fewer value place leastE lastD)
  subst same
  have pos : (0 : Int) < tenPow m := by exact_mod_cast tenPow_pos m
  have units : d.unscaled = e.unscaled := Int.eq_of_mul_eq_mul_right (Int.ne_of_gt pos) value
  have scales : d.scale = e.scale := by omega
  cases d
  cases e
  simp_all

theorem isNormal_checked {unscaled scale : Int} {d : Decimal} (h : checked unscaled scale = .ok d) :
    d.IsNormal := by
  obtain ⟨normal, low, high⟩ := checked_eq_ok h
  by_cases zero : unscaled = 0
  · rw [zero, normalize_zero] at normal
    subst normal
    exact ⟨fun _ => rfl, low, high, fun nonzero => absurd rfl nonzero⟩
  · obtain ⟨zeros, value, _, _, last⟩ := normal ▸ normalize_strips scale zero
    refine ⟨fun none => ?_, low, high, fun _ divides => ?_⟩
    · rw [none, Int.zero_mul] at value
      exact absurd value zero
    · by_cases above : minScale < d.scale
      · exact absurd divides (last above)
      · omega

theorem checked_padded {d : Decimal} (normal : d.IsNormal) (zeros : Nat) :
    checked (d.unscaled * tenPow zeros) (d.scale + zeros) = .ok d := by
  have same : normalize (d.unscaled * tenPow zeros) (d.scale + zeros) = d := by
    by_cases zero : d.unscaled = 0
    · have scale := normal.scale_of_zero zero
      rw [zero, Int.zero_mul, normalize_zero]
      cases d
      simp_all
    · have pos : (0 : Int) < tenPow zeros := by exact_mod_cast tenPow_pos zeros
      have nonzero := Int.mul_ne_zero zero (Int.ne_of_gt pos)
      refine strips_unique (normalize_strips _ nonzero)
        ⟨zeros, rfl, rfl, Or.inr normal.minScale_le, fun above divides => ?_⟩
      have := normal.stripped zero divides
      omega
  rw [checked]
  simp only [same]
  rw [if_pos ⟨normal.minScale_le, normal.le_maxScale⟩]

theorem checked_self {d : Decimal} (normal : d.IsNormal) : checked d.unscaled d.scale = .ok d := by
  have padded := checked_padded normal 0
  rwa [tenPow_zero, Nat.cast_one, Int.mul_one, Nat.cast_zero, Int.add_zero] at padded

theorem isNormal_normalize {unscaled scale : Int} (low : minScale ≤ scale) (high : scale ≤ maxScale) :
    (normalize unscaled scale).IsNormal := by
  refine @isNormal_checked unscaled scale _ (if_pos ?_)
  by_cases zero : unscaled = 0
  · rw [zero, normalize_zero]
    decide
  · obtain ⟨zeros, _, place, least, _⟩ := normalize_strips scale zero
    constructor
    · rcases least with none | some
      · omega
      · exact some
    · omega

theorem isNormal_ofInt (n : Int) : (ofInt n).IsNormal := isNormal_normalize (by decide) (by decide)

theorem toRat_ofInt (n : Int) : (ofInt n).toRat = n := by
  rw [ofInt, toRat_normalize]
  simp

theorem fitsSigned_64_iff (n : Int) :
    FitsSigned 64 n ↔ -9223372036854775808 ≤ n ∧ n ≤ 9223372036854775807 := by
  have power : (twoPow (64 - 1) : Int) = 9223372036854775808 := rfl
  rw [FitsSigned, power]
  omega

theorem toRat_injective {a b : Decimal} (ha : a.IsNormal) (hb : b.IsNormal) (same : a.toRat = b.toRat) :
    a = b := by
  -- both are what the digits of the one with the smaller scale are normalized to
  wlog order : a.scale ≤ b.scale generalizing a b
  · exact (this hb ha same.symm (by omega)).symm
  obtain ⟨zeros, gap⟩ : ∃ zeros : Nat, b.scale = a.scale + zeros :=
    ⟨(b.scale - a.scale).toNat, by omega⟩
  have scaled : (b.unscaled : ℚ) = (a.unscaled * tenPow zeros : Int) := by
    have units : (10 : ℚ) ^ (-b.scale) ≠ 0 := zpow_ne_zero _ (by norm_num)
    apply mul_right_cancel₀ units
    rw [← toRat, ← same, toRat, Int.cast_mul, Int.cast_natCast, cast_tenPow, gap, mul_assoc,
      ← zpow_natCast, ← zpow_add₀ (by norm_num)]
    congr 2
    ring
  have padded := checked_padded ha zeros
  rw [← gap, ← Int.cast_injective scaled, checked_self hb] at padded
  exact (Except.ok.inj padded).symm

end TemplateExpr.Decimal
