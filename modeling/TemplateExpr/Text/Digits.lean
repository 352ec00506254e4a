import TemplateExpr.Powers
/-!
Digits of bases up to 16, the bounded integers that runs of decimal digits spell, and the decimal digits of
numbers. Only ASCII characters count as digits; the letters among them may be small or capital.

Long runs are read and written by halves, since the work of going digit by digit grows with the square of
the length. `valueIn_eq_foldl` and `ofNat_eq_toDigits` state that the results are those of the digit by digit
rules.
-/
namespace TemplateExpr.Digits

def digit? (c : Char) : Option Nat :=
  if c.isDigit then some (c.toNat - 48)
  else if 'a' ≤ c ∧ c ≤ 'f' then some (c.toNat - 87)
  else if 'A' ≤ c ∧ c ≤ 'F' then some (c.toNat - 55)
  else none

def isDigitOf (base : Nat) (c : Char) : Bool := (digit? c).any (· < base)

def push (base n : Nat) (c : Char) : Nat := n * base + (digit? c).getD 0

/-- The number that digits spell, from a run halved `depth` times. -/
def valueByHalves (base : Nat) : Nat → List Char → Nat
  | 0, cs => cs.foldl (push base) 0
  | depth + 1, cs =>
    let high := cs.take (cs.length / 2)
    let low := cs.drop (cs.length / 2)
    valueByHalves base depth high * base.pow low.length + valueByHalves base depth low

def valueIn (base : Nat) (cs : List Char) : Nat :=
  valueByHalves base (Nat.log2 (cs.length / 32)) cs

theorem foldl_push (base n : Nat) (cs : List Char) :
    cs.foldl (push base) n = n * base.pow cs.length + cs.foldl (push base) 0 := by
  induction cs generalizing n with
  | nil => exact (Nat.mul_one n).symm
  | cons c cs ih =>
    rw [List.foldl_cons, List.foldl_cons, ih (push base n c), ih (push base 0 c)]
    have grow : base.pow (c :: cs).length = base.pow cs.length * base := rfl
    rw [grow]
    simp only [push, Nat.zero_mul, Nat.zero_add, Nat.add_mul]
    rw [Nat.mul_assoc, Nat.mul_comm base, Nat.add_assoc]

theorem valueByHalves_eq_foldl (base depth : Nat) (cs : List Char) :
    valueByHalves base depth cs = cs.foldl (push base) 0 := by
  induction depth generalizing cs with
  | zero => rfl
  | succ depth ih =>
    rw [valueByHalves, ih, ih, ← foldl_push, ← List.foldl_append, List.take_append_drop]

theorem valueIn_eq_foldl (base : Nat) (cs : List Char) :
    valueIn base cs = cs.foldl (push base) 0 := valueByHalves_eq_foldl ..

/-- The last `2 ^ k` decimal digits of a number that has no more of them. -/
def block : Nat → Nat → List Char
  | 0, n => [Nat.digitChar n]
  | k + 1, n =>
    let unit := tenPow (twoPow k)
    block k (n / unit) ++ block k (n % unit)

/-- The decimal digits of a number below `10 ^ 2 ^ k`, without leading zeros. -/
def below : Nat → Nat → List Char
  | 0, n => [Nat.digitChar n]
  | k + 1, n =>
    let unit := tenPow (twoPow k)
    if n < unit then below k n else below k (n / unit) ++ block k (n % unit)

/-- The decimal digits of a number; zero has one. -/
def ofNat (n : Nat) : List Char := below (Nat.log2 (Nat.log2 n)) n

theorem toDigits_append_block {high k low : Nat} (pos : 0 < high) (bound : low < tenPow (twoPow k)) :
    Nat.toDigits 10 (high * tenPow (twoPow k) + low) = Nat.toDigits 10 high ++ block k low := by
  induction k generalizing high low with
  | zero =>
    have small : low < 10 := bound
    have split := Nat.toDigits_append_toDigits (b := 10) (by decide) pos small
    rw [Nat.toDigits_of_lt_base small] at split
    rw [block, split]
    congr 1
    exact congrArg (· + low) (Nat.mul_comm high 10)
  | succ k ih =>
    have unit_pos := tenPow_pos (twoPow k)
    rw [tenPow_twoPow_succ] at bound ⊢
    have middle : low / tenPow (twoPow k) < tenPow (twoPow k) := Nat.div_lt_of_lt_mul bound
    have last : low % tenPow (twoPow k) < tenPow (twoPow k) := Nat.mod_lt _ unit_pos
    have regroup : high * (tenPow (twoPow k) * tenPow (twoPow k)) + low =
        (high * tenPow (twoPow k) + low / tenPow (twoPow k)) * tenPow (twoPow k) +
          low % tenPow (twoPow k) := by
      rw [Nat.add_mul, Nat.add_assoc, Nat.div_add_mod', Nat.mul_assoc]
    have above : 0 < high * tenPow (twoPow k) + low / tenPow (twoPow k) :=
      Nat.add_pos_left (Nat.mul_pos pos unit_pos) _
    rw [regroup, ih above last, ih pos middle, block, List.append_assoc]

theorem below_eq_toDigits {k n : Nat} (bound : n < tenPow (twoPow k)) :
    below k n = Nat.toDigits 10 n := by
  induction k generalizing n with
  | zero => exact (Nat.toDigits_of_lt_base bound).symm
  | succ k ih =>
    have unit_pos := tenPow_pos (twoPow k)
    rw [below]
    split
    · rename_i small
      exact ih small
    · rename_i large
      rw [tenPow_twoPow_succ] at bound
      have high_pos : 0 < n / tenPow (twoPow k) := Nat.div_pos (Nat.le_of_not_lt large) unit_pos
      rw [ih (Nat.div_lt_of_lt_mul bound), ← toDigits_append_block high_pos (Nat.mod_lt _ unit_pos),
        Nat.div_add_mod']

theorem ofNat_eq_toDigits (n : Nat) : ofNat n = Nat.toDigits 10 n := by
  refine below_eq_toDigits (lt_tenPow_twoPow ?_)
  have bound := lt_twoPow_log2_succ (Nat.log2 n)
  rw [twoPow_succ] at bound
  omega

def IsRun (cs : List Char) : Prop := cs ≠ [] ∧ ∀ c ∈ cs, c.isDigit = true

instance (cs : List Char) : Decidable (IsRun cs) :=
  decidable_of_iff (cs ≠ [] ∧ cs.all Char.isDigit = true) (and_congr Iff.rfl List.all_eq_true)

def value (cs : List Char) : Nat := valueIn 10 cs

theorem value_eq_ofDigitChars {cs : List Char} (digits : ∀ c ∈ cs, c.isDigit = true) :
    value cs = Nat.ofDigitChars 10 cs 0 := by
  rw [value, valueIn_eq_foldl, Nat.ofDigitChars_eq_foldl]
  generalize 0 = n
  induction cs generalizing n with
  | nil => rfl
  | cons c cs ih =>
    have first := digits c List.mem_cons_self
    have step : push 10 n c = 10 * n + (c.toNat - '0'.toNat) := by
      rw [push, digit?, if_pos first, Option.getD_some, Nat.mul_comm]
      rfl
    rw [List.foldl_cons, List.foldl_cons, step]
    exact ih (fun d mem => digits d (List.mem_cons_of_mem _ mem)) _

def run? (cs : List Char) : Option Nat := if IsRun cs then some (value cs) else none

/-- An unsigned integer of the given width; a plus sign may precede it. -/
def unsigned? (bits : Nat) (cs : List Char) : Option Nat :=
  (match cs with
    | '+' :: rest => run? rest
    | _ => run? cs).filter fun n => n < twoPow bits

def signed? (bits : Nat) (cs : List Char) : Option Int :=
  (match cs with
    | '+' :: rest => (run? rest).map fun n : Nat => (n : Int)
    | '-' :: rest => (run? rest).map fun n : Nat => -(n : Int)
    | _ => (run? cs).map fun n : Nat => (n : Int)).filter fun n => FitsSigned bits n

end TemplateExpr.Digits
