/-!
Powers of ten and of two, by which numbers are scaled and bounded.
-/
namespace TemplateExpr

def tenPow (n : Nat) : Nat := Nat.pow 10 n

def twoPow (n : Nat) : Nat := Nat.pow 2 n

abbrev FitsSigned (bits : Nat) (n : Int) : Prop :=
  -(twoPow (bits - 1)) ≤ n ∧ n ≤ twoPow (bits - 1) - 1

/-- The integer of `bits`-bit two's complement that has the same last bits. -/
def wrapSigned (bits : Nat) (n : Int) : Int := n.bmod (twoPow bits)

theorem tenPow_zero : tenPow 0 = 1 := rfl

theorem tenPow_succ (n : Nat) : tenPow (n + 1) = tenPow n * 10 := rfl

theorem tenPow_pos (n : Nat) : 0 < tenPow n := by
  induction n with
  | zero => exact Nat.one_pos
  | succ n ih =>
    rw [tenPow_succ]
    omega

theorem twoPow_succ (n : Nat) : twoPow (n + 1) = twoPow n * 2 := rfl

theorem tenPow_add (m n : Nat) : tenPow (m + n) = tenPow m * tenPow n := Nat.pow_add 10 m n

theorem tenPow_twoPow_succ (k : Nat) :
    tenPow (twoPow (k + 1)) = tenPow (twoPow k) * tenPow (twoPow k) := by
  rw [twoPow_succ, Nat.mul_two, tenPow_add]

theorem lt_twoPow_log2_succ (n : Nat) : n < twoPow (Nat.log2 n + 1) := Nat.lt_log2_self

theorem twoPow_three_mul_le (n : Nat) : twoPow (3 * n) ≤ tenPow n := by
  have eight : twoPow (3 * n) = Nat.pow 8 n := Nat.pow_mul 2 3 n
  rw [eight]
  exact Nat.pow_le_pow_left (by decide) n

theorem lt_tenPow_twoPow {n k : Nat} (bound : Nat.log2 n < 3 * twoPow k) :
    n < tenPow (twoPow k) :=
  calc
    n < twoPow (Nat.log2 n + 1) := lt_twoPow_log2_succ n
    _ ≤ twoPow (3 * twoPow k) := Nat.pow_le_pow_right (by decide) bound
    _ ≤ tenPow (twoPow k) := twoPow_three_mul_le _

end TemplateExpr
