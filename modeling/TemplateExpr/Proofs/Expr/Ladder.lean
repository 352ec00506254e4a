import TemplateExpr.Proofs.Expr.Writing
/-!
The ladder of expressions. From each rung that an expression is not on it may be written on the next one, and
on the last one it may be put in parentheses. So an expression that can be written on the rung that is its own
can be written on every rung, with parentheses where the rung is a stronger one.
-/
namespace TemplateExpr

open Token

def Phrase.rung : Nat → Expr → Phrase
  | 0, e => expression e
  | 1, e => level .relational e
  | 2, e => level .shift e
  | 3, e => level .additive e
  | 4, e => level .multiplicative e
  | 5, e => level .power e
  | 6, e => unary e
  | _, e => primary e

theorem rung_level (l : Level) (e : Expr) : Phrase.rung (l.strength + 1) e = .level l e := by
  cases l <;> rfl

theorem rung_operand (l : Level) (e : Expr) : Phrase.rung (l.strength + 2) e = .operand l e := by
  cases l <;> rfl

theorem rank_le (e : Expr) : e.rank ≤ 7 := by
  cases e with
  | binary op left right =>
    have bound := strength_le op.level
    rw [Expr.rank]
    omega
  | _ => simp [Expr.rank]

theorem trivia_nil : Trivia [] := .nil

theorem gap_blank : Gap [' '] := ⟨.blank rfl .nil, List.cons_ne_nil _ _⟩

variable {tight : Prop} {allow : String → Nat → Except Error Unit} {e : Expr} {i : Nat} {w : List Char}

theorem written_next {k : Nat} (other : tight → e.rank ≠ k) (below : k < 7)
    (inner : Written tight allow (.rung (k + 1) e) i w) : Written tight allow (.rung k e) i w := by
  match k with
  | 0 => exact .relational other inner
  | 1 => exact .operand other inner
  | 2 => exact .operand other inner
  | 3 => exact .operand other inner
  | 4 => exact .operand other inner
  | 5 => exact .operand other inner
  | 6 => exact .plain other inner

theorem written_weaker {k n : Nat} (less : k ≤ n) (top : n ≤ 7)
    (other : tight → ∀ m, k ≤ m → m < n → e.rank ≠ m) (inner : Written tight allow (.rung n e) i w) :
    Written tight allow (.rung k e) i w := by
  induction n with
  | zero =>
    cases Nat.le_zero.mp less
    exact inner
  | succ n ih =>
    rcases Nat.le_succ_iff.mp less with before | same
    · refine ih before (Nat.le_of_succ_le top) (fun h m low high => other h m low (Nat.lt_succ_of_lt high)) ?_
      exact written_next (fun h => other h n before (Nat.lt_succ_self n)) top inner
    · exact same ▸ inner

theorem written_paren (weak : tight → e.rank ≠ 7) (inner : Written tight allow (.expression e) (i + 1) w) :
    Written tight allow (.primary e) i ('(' :: (w ++ [' ', ')'])) :=
  .paren weak trivia_nil inner gap_blank

end TemplateExpr
