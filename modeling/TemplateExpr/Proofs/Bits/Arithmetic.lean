import TemplateExpr.Bits
import Mathlib.Data.Int.Bitwise
import Mathlib.Data.Nat.Bitwise
import Mathlib.Data.Rat.Floor
/-!
What the operations on bits mean for integers. Each works bit by bit. Where two integers differ counts once and what
they have in common twice, so together these two make their sum; and a shift multiplies by a power of two and rounds
down.
-/
namespace TemplateExpr.Bits

theorem sum_and_union_nat (m n : ℕ) :
    (m ^^^ n) + 2 * (m &&& n) = m + n ∧ m ||| n = (m ^^^ n) + (m &&& n) := by
  induction m using Nat.binaryRec generalizing n with
  | zero => simp
  | bit b m ih =>
    cases n using Nat.bitCasesOn with
    | bit c n =>
      have above := ih n
      have sum : (bne b c).toNat + 2 * (b && c).toNat = b.toNat + c.toNat := by cases b <;> cases c <;> rfl
      have union : (b || c).toNat = (bne b c).toNat + (b && c).toNat := by cases b <;> cases c <;> rfl
      rw [Nat.xor_bit, Nat.land_bit, Nat.lor_bit, Nat.bit_val, Nat.bit_val, Nat.bit_val, Nat.bit_val, Nat.bit_val]
      omega

theorem without_add_and (m n : ℕ) : without m n + (m &&& n) = m := by
  have parts := (sum_and_union_nat m (m &&& n)).1
  have inside : m &&& (m &&& n) = m &&& n := by rw [← Nat.and_assoc, Nat.and_self]
  rw [inside] at parts
  rw [without]
  omega

theorem differences (m n : ℕ) : without m n + (m &&& n) = m ∧ without n m + (m &&& n) = n := by
  have other := without_add_and n m
  rw [Nat.and_comm] at other
  exact ⟨without_add_and m n, other⟩

theorem without_eq_ldiff (m n : ℕ) : without m n = Nat.ldiff m n := by
  refine Nat.eq_of_testBit_eq fun i => ?_
  rw [without, Nat.testBit_xor, Nat.testBit_and, Nat.testBit_ldiff]
  cases m.testBit i <;> cases n.testBit i <;> rfl

theorem and_eq_land (m n : ℤ) : and m n = Int.land m n := by
  cases m <;> cases n <;> simp only [and, Int.land, without_eq_ldiff] <;> rfl

theorem or_eq_lor (m n : ℤ) : or m n = Int.lor m n := by
  cases m <;> cases n <;> simp only [or, Int.lor, without_eq_ldiff]
  rfl

theorem xor_eq_xor (m n : ℤ) : xor m n = Int.xor m n := by cases m <;> cases n <;> rfl

theorem sum_and_union (m n : ℤ) : xor m n + and m n * 2 = m + n ∧ or m n = xor m n + and m n := by
  cases m with
  | ofNat j =>
    cases n with
    | ofNat k =>
      have parts := sum_and_union_nat j k
      simp only [xor, and, or, Int.ofNat_eq_natCast]
      omega
    | negSucc k =>
      have parts := sum_and_union_nat j k
      have rest := differences j k
      simp only [xor, and, or, Int.ofNat_eq_natCast, Int.negSucc_eq]
      omega
  | negSucc j =>
    cases n with
    | ofNat k =>
      have parts := sum_and_union_nat j k
      have rest := differences j k
      simp only [xor, and, or, Int.ofNat_eq_natCast, Int.negSucc_eq]
      omega
    | negSucc k =>
      have parts := sum_and_union_nat j k
      simp only [xor, and, or, Int.ofNat_eq_natCast, Int.negSucc_eq]
      omega

theorem shift_eq_floor (n count : ℤ) : shift n count = ⌊(n : ℚ) * 2 ^ count⌋ := by
  unfold shift
  split
  · rename_i up
    obtain ⟨k, rfl⟩ := Int.eq_ofNat_of_zero_le up
    have product : (n : ℚ) * 2 ^ (k : ℤ) = ((n * 2 ^ k : ℤ) : ℚ) := by push_cast; rfl
    have power : (twoPow k : ℤ) = 2 ^ k := Nat.cast_pow 2 k
    rw [product, Int.floor_intCast, Int.toNat_natCast, power]
    split
    · rename_i zero
      rw [zero, zero_mul]
    · rfl
  · rename_i down
    obtain ⟨k, rfl⟩ : ∃ k : ℕ, count = -k := ⟨count.natAbs, by omega⟩
    have quotient : (n : ℚ) * 2 ^ (-(k : ℤ)) = (n : ℚ) / (2 ^ k : ℕ) := by
      rw [zpow_neg, zpow_natCast, div_eq_mul_inv]
      push_cast
      rfl
    rw [quotient, Rat.floor_intCast_div_natCast, Int.natAbs_neg, Int.natAbs_natCast, Int.shiftRight_eq_div_pow]

end TemplateExpr.Bits
