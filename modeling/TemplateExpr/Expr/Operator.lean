import TemplateExpr.Bits
import TemplateExpr.Decimal.Power
import TemplateExpr.Expr.Basic
/-!
What operators make of values. Arithmetic works on numbers, comparison on values of any kinds. Bit operators
join two logic values as truth values, and work on the integer parts of numbers otherwise.
-/
namespace TemplateExpr

def arithmetic (result : Except ArithmeticFault Decimal) : Except Error Value :=
  match result with
  | .ok n => .ok (.number n)
  | .error fault => .error (.arithmetic fault)

def bitwise (truth : Bool → Bool → Bool) (bits : Int → Int → Int) (l r : Value) :
    Except Error Value :=
  match l, r with
  | .logic a, .logic b => .ok (.logic (truth a b))
  | l, r => do
    let m ← l.asNumber
    let n ← r.asNumber
    return .ofInt (bits m.trunc n.trunc)

/-- A shift to the left, by a count that is a signed 32-bit integer. To shift to the right is to shift by
the opposite count. -/
def shift (right : Bool) (l r : Value) : Except Error Value := do
  match (← r.asNumber).toInt32? with
  | none => throw (.arithmetic (.invalidShiftCount r.asText))
  | some count => return .ofInt (Bits.shift (← l.asNumber).trunc (if right then -count else count))

/-- The operators that need both of their operands; `and` and `or` are among them if asked to join two
values that are there. -/
def BinaryOp.apply (math : MathSettings) (op : BinaryOp) (l r : Value) : Except Error Value :=
  match op with
  | equal => .ok (.logic (l.equals r))
  | notEqual => .ok (.logic !l.equals r)
  | less => .ok (.logic (l.compare r).isLT)
  | greater => .ok (.logic (l.compare r).isGT)
  | lessEqual => .ok (.logic (l.compare r).isLE)
  | greaterEqual => .ok (.logic (l.compare r).isGE)
  | before => return .logic ((← l.asDate).compare (← r.asDate)).isLT
  | after => return .logic ((← l.asDate).compare (← r.asDate)).isGT
  | add => return .number ((← l.asNumber).add (← r.asNumber))
  | sub => return .number ((← l.asNumber).sub (← r.asNumber))
  | mul => do arithmetic ((← l.asNumber).checkedMul (← r.asNumber))
  | div => do arithmetic ((← l.asNumber).div (← r.asNumber) math)
  | divFloor => do arithmetic ((← l.asNumber).divFloor (← r.asNumber))
  | divTrunc => do arithmetic ((← l.asNumber).divTrunc (← r.asNumber))
  | rem => do arithmetic ((← l.asNumber).rem (← r.asNumber))
  | power => do arithmetic ((← l.asNumber).pow (← r.asNumber) math)
  | join => .ok (.text (l.asText ++ r.asText))
  | bitAnd => bitwise Bool.and Bits.and l r
  | bitOr => bitwise Bool.or Bits.or l r
  | xor => bitwise Bool.xor Bits.xor l r
  | shiftLeft => shift false l r
  | shiftRight => shift true l r
  | and => return .logic ((← l.asLogic) && (← r.asLogic))
  | or => return .logic ((← l.asLogic) || (← r.asLogic))

def UnaryOp.apply (op : UnaryOp) (v : Value) : Except Error Value :=
  match op with
  | negate => return .number (← v.asNumber).neg
  | plus => return .number (← v.asNumber)
  | not => return .logic !(← v.asLogic)
  | complement =>
    match v with
    | .logic b => .ok (.logic !b)
    | v => return .ofInt (Bits.complement (← v.asNumber).trunc)

end TemplateExpr
