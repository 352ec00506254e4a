import TemplateExpr.Expr.Operator
import TemplateExpr.Proofs.Bits.Arithmetic
import TemplateExpr.Proofs.Decimal.Arithmetic
import TemplateExpr.Proofs.Decimal.IntegerViews
import TemplateExpr.Proofs.Decimal.Results
/-!
The operators on bits, for numbers. They work on the integer parts, cut towards zero, as on sequences of bits without
end: so they are tied to the sum of these integers, and a shift to their products with powers of two, rounded down. The
count of a shift is a signed 32-bit integer or an error.
-/
namespace TemplateExpr

open Decimal (towardsZero)

/-- `(l ^ r) + ((l & r) << 1)`. -/
def sumOfBits (math : MathSettings) (l r : Value) : Except Error Value := do
  let different ← BinaryOp.xor.apply math l r
  let common ← BinaryOp.bitAnd.apply math l r
  BinaryOp.add.apply math different (← BinaryOp.shiftLeft.apply math common (.ofInt 1))

/-- `(l ^ r) + (l & r)`. -/
def unionOfBits (math : MathSettings) (l r : Value) : Except Error Value := do
  let different ← BinaryOp.xor.apply math l r
  let common ← BinaryOp.bitAnd.apply math l r
  BinaryOp.add.apply math different common

/-- The result is the integer whose every bit is `truth` of the bits of `m` and `n` at its place. -/
def JoinsBits (truth : Bool → Bool → Bool) (m n : ℤ) (result : Except Error Value) : Prop :=
  ∃ r : ℤ, result = .ok (.ofInt r) ∧ ∀ place, r.testBit place = truth (m.testBit place) (n.testBit place)

structure Counts (k : Decimal) (count : ℤ) : Prop where
  whole : k.toRat = count
  least : -2147483648 ≤ count
  most : count ≤ 2147483647

section Numbers

variable (a b : Decimal)

theorem bitwise_numbers (truth : Bool → Bool → Bool) (bits : ℤ → ℤ → ℤ) :
    bitwise truth bits (.number a) (.number b) = .ok (.ofInt (bits (towardsZero a.toRat) (towardsZero b.toRat))) := by
  rw [← Decimal.trunc_eq_towardsZero, ← Decimal.trunc_eq_towardsZero]
  rfl

theorem add_ofInt (math : MathSettings) (m n : ℤ) :
    BinaryOp.add.apply math (.ofInt m) (.ofInt n) = .ok (.ofInt (m + n)) := by
  have normal := Decimal.isNormal_add (Decimal.isNormal_ofInt m) (Decimal.isNormal_ofInt n)
  have value : ((Decimal.ofInt m).add (.ofInt n)).toRat = ((m + n : ℤ) : ℚ) := by
    rw [Decimal.toRat_add, Decimal.toRat_ofInt, Decimal.toRat_ofInt, Int.cast_add]
  exact congrArg (fun sum => Except.ok (Value.number sum)) (Decimal.eq_ofInt normal value)

theorem complement_number :
    UnaryOp.complement.apply (.number a) = .ok (.ofInt (-towardsZero a.toRat - 1)) := by
  rw [← Decimal.trunc_eq_towardsZero]
  rfl

variable {k : Decimal}

theorem toInt32?_eq_some_iff_counts (normal : k.IsNormal) (count : ℤ) :
    k.toInt32? = some count ↔ Counts k count := by
  rw [Decimal.converts_toInt32? normal count]
  constructor
  · rintro ⟨whole, least, most⟩
    exact ⟨whole, by omega, by omega⟩
  · rintro ⟨whole, least, most⟩
    exact ⟨whole, by omega, by omega⟩

theorem toInt32?_of_never (normal : k.IsNormal) (never : ∀ count, ¬ Counts k count) : k.toInt32? = none :=
  Option.eq_none_iff_forall_ne_some.mpr fun count answer =>
    never count ((toInt32?_eq_some_iff_counts normal count).mp answer)

theorem shift_of_counts (normal : k.IsNormal) {count : ℤ} (counts : Counts k count) (right : Bool) :
    shift right (.number a) (.number k) =
      .ok (.ofInt ⌊(towardsZero a.toRat : ℚ) * 2 ^ (if right then -count else count)⌋) := by
  have number := (toInt32?_eq_some_iff_counts normal count).mpr counts
  unfold shift
  dsimp only [Value.asNumber, Bind.bind, Except.bind]
  rw [number, ← Bits.shift_eq_floor, ← Decimal.trunc_eq_towardsZero]
  rfl

theorem shift_of_never (normal : k.IsNormal) (never : ∀ count, ¬ Counts k count) (right : Bool) :
    shift right (.number a) (.number k) = .error (.arithmetic (.invalidShiftCount k.toText)) := by
  have number := toInt32?_of_never normal never
  unfold shift
  dsimp only [Value.asNumber, Bind.bind, Except.bind]
  rw [number]
  rfl

theorem joinsBits_number {truth : Bool → Bool → Bool} {bits : ℤ → ℤ → ℤ}
    (placewise : ∀ m n place, (bits m n).testBit place = truth (m.testBit place) (n.testBit place)) :
    JoinsBits truth (towardsZero a.toRat) (towardsZero b.toRat) (bitwise truth bits (.number a) (.number b)) :=
  ⟨_, bitwise_numbers a b truth bits, placewise _ _⟩

theorem shiftLeft_one (math : MathSettings) (n : ℤ) :
    BinaryOp.shiftLeft.apply math (.ofInt n) (.ofInt 1) = .ok (.ofInt (n * 2)) := by
  have one : Counts (.ofInt 1) 1 := ⟨Decimal.toRat_ofInt 1, by decide, by decide⟩
  have doubled : (n : ℚ) * 2 ^ (1 : ℤ) = ((n * 2 : ℤ) : ℚ) := by rw [zpow_one]; push_cast; rfl
  have moved := shift_of_counts (Decimal.ofInt n) (Decimal.isNormal_ofInt 1) one false
  rw [Decimal.toRat_ofInt, Decimal.towardsZero_intCast, if_neg Bool.false_ne_true, doubled, Int.floor_intCast] at moved
  exact moved

theorem sumOfBits_numbers (math : MathSettings) :
    sumOfBits math (.number a) (.number b) = .ok (.ofInt (towardsZero a.toRat + towardsZero b.toRat)) := by
  have different : BinaryOp.xor.apply math (.number a) (.number b) = _ := bitwise_numbers a b Bool.xor Bits.xor
  have common : BinaryOp.bitAnd.apply math (.number a) (.number b) = _ := bitwise_numbers a b Bool.and Bits.and
  rw [sumOfBits, different, common]
  dsimp only [Bind.bind, Except.bind]
  rw [shiftLeft_one]
  dsimp only
  rw [add_ofInt, (Bits.sum_and_union (towardsZero a.toRat) (towardsZero b.toRat)).1]

theorem bitOr_numbers (math : MathSettings) :
    BinaryOp.bitOr.apply math (.number a) (.number b) = unionOfBits math (.number a) (.number b) := by
  have different : BinaryOp.xor.apply math (.number a) (.number b) = _ := bitwise_numbers a b Bool.xor Bits.xor
  have common : BinaryOp.bitAnd.apply math (.number a) (.number b) = _ := bitwise_numbers a b Bool.and Bits.and
  have either : BinaryOp.bitOr.apply math (.number a) (.number b) = _ := bitwise_numbers a b Bool.or Bits.or
  rw [unionOfBits, different, common, either]
  dsimp only [Bind.bind, Except.bind]
  rw [add_ofInt, (Bits.sum_and_union (towardsZero a.toRat) (towardsZero b.toRat)).2]

end Numbers

/-- Two numbers are joined bit by bit in their integer parts `m` and `n`, so that `(a ^ b) + ((a & b) << 1)` is `m + n`,
`a | b` is `(a ^ b) + (a & b)`, and the complement of `a` is `-m - 1`. A shift by a signed 32-bit integer multiplies `m`
by a power of two and rounds down; by any other number it fails. -/
theorem bit_operators_exact (math : MathSettings) (a b : Decimal) {k : Decimal} (normal : k.IsNormal) :
    let m := towardsZero a.toRat
    let n := towardsZero b.toRat
    let join := fun op : BinaryOp => op.apply math (.number a) (.number b)
    let left := BinaryOp.shiftLeft.apply math (.number a) (.number k)
    let right := BinaryOp.shiftRight.apply math (.number a) (.number k)
    sumOfBits math (.number a) (.number b) = .ok (.ofInt (m + n)) ∧
      join .bitOr = unionOfBits math (.number a) (.number b) ∧
      UnaryOp.complement.apply (.number a) = .ok (.ofInt (-m - 1)) ∧
      (JoinsBits Bool.and m n (join .bitAnd) ∧ JoinsBits Bool.or m n (join .bitOr) ∧ JoinsBits Bool.xor m n (join .xor)) ∧
      (∀ count, Counts k count →
        left = .ok (.ofInt ⌊(m : ℚ) * 2 ^ count⌋) ∧ right = .ok (.ofInt ⌊(m : ℚ) * 2 ^ (-count)⌋)) ∧
      ((∀ count, ¬ Counts k count) →
        left = .error (.arithmetic (.invalidShiftCount k.toText)) ∧
          right = .error (.arithmetic (.invalidShiftCount k.toText))) := by
  refine ⟨sumOfBits_numbers a b math, bitOr_numbers a b math, complement_number a, ⟨?_, ?_, ?_⟩, ?_, ?_⟩
  · refine joinsBits_number a b fun m n place => ?_
    rw [Bits.and_eq_land, Int.testBit_land]
  · refine joinsBits_number a b fun m n place => ?_
    rw [Bits.or_eq_lor, Int.testBit_lor]
  · refine joinsBits_number a b fun m n place => ?_
    rw [Bits.xor_eq_xor, Int.testBit_lxor]
  · intro count counts
    exact ⟨shift_of_counts a normal counts false, shift_of_counts a normal counts true⟩
  · intro never
    exact ⟨shift_of_never a normal never false, shift_of_never a normal never true⟩

/-- A negative number with a fraction, joined with a positive one and shifted by the least count. -/
theorem bit_operators_exact_least :
    let a : Decimal := ⟨-15, 1⟩
    let b : Decimal := ⟨29, 1⟩
    let k : Decimal := ⟨-2147483648, 0⟩
    k.IsNormal ∧ Counts k (-2147483648) ∧ sumOfBits {} (.number a) (.number b) = .ok (.ofInt 1) ∧
      UnaryOp.complement.apply (.number a) = .ok (.ofInt 0) ∧
      BinaryOp.shiftLeft.apply {} (.number a) (.number k) = .ok (.ofInt (-1)) := by
  intro a b k
  have normal : k.IsNormal := ⟨by decide, by decide, by decide, by decide⟩
  have counts : Counts k (-2147483648) := ⟨by norm_num [k, Decimal.toRat], le_rfl, by decide⟩
  have first : towardsZero a.toRat = -1 := by
    rw [← Decimal.trunc_eq_towardsZero]
    decide +kernel
  have second : towardsZero b.toRat = 2 := by
    rw [← Decimal.trunc_eq_towardsZero]
    decide +kernel
  obtain ⟨sum, _, complement, _, moved, _⟩ := bit_operators_exact {} a b normal
  rw [first, second] at sum
  rw [first] at complement
  have least : ⌊((-1 : ℤ) : ℚ) * 2 ^ (-2147483648 : ℤ)⌋ = -1 := by
    have pos : (0 : ℚ) < 2 ^ (-2147483648 : ℤ) := zpow_pos (by norm_num) _
    have small : (2 : ℚ) ^ (-2147483648 : ℤ) ≤ 1 := zpow_le_one_of_nonpos₀ (by norm_num) (by norm_num)
    generalize (2 : ℚ) ^ (-2147483648 : ℤ) = unit at pos small ⊢
    rw [Int.floor_eq_iff]
    push_cast
    constructor
    · linarith
    · linarith
  have shifted := (moved _ counts).1
  rw [first, least] at shifted
  exact ⟨normal, counts, sum, complement, shifted⟩

end TemplateExpr
