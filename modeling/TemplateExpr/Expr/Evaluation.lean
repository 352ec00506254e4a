import TemplateExpr.Expr.Operator
import TemplateExpr.Function.Registry
import TemplateExpr.Symbols
/-!
The value of an expression. Operands are evaluated from the left, each of them once. The branch of a
conditional that is not taken, the right side of a decided `and` or `or`, the fallback of a defined variable
and the slice of an undefined one are not evaluated. A run that has been cancelled ends at the next
checkpoint: before the operands of an operator, before the arguments of a call and before a value of a
template with further parts.
-/
namespace TemplateExpr

structure Surroundings (σ : Type) where
  registry : Registry σ
  math : MathSettings
  symbols : Symbols

/-- The value segment so many segments back; `produced` holds their texts, the latest first. -/
def lookBack? (produced : List String) (distance : Nat) : Option String :=
  if distance = 0 then none else produced[distance - 1]?

def boundIndex (position : Nat) (v : Value) : Except Error Nat := do
  let n ← v.asNumber
  if ¬ n.IsInteger then throw (.fractional position n.toText)
  else
    match n.toInt32?.filter (0 ≤ ·) with
    | some i => return i.toNat
    | none => throw (.outOfRange position n.toText)

def withinLength (position index most : Nat) : Except Error Unit :=
  if most < index then .error (.outOfRange position (toString index)) else .ok ()

namespace Expr

variable {σ : Type}

mutual

def eval (on : Surroundings σ) : Expr → Eval σ Value
  | constant v => return v
  | template [.value e] true => eval on e
  | template segments _ => do
    let parts ← evalSegments on [] segments
    return .text (String.join parts)
  | reference ⟨name, slice, transforms, length, fallback⟩ =>
    match on.symbols.read? name with
    | none => evalFallback on name fallback
    | some raw => do
      let text ← evalSlice on raw slice
      let text := transforms.foldl (fun text transform => transform.apply text) text
      return if length then .ofInt text.length else .text text
  | defined name => return .logic (on.symbols.read? name).isSome
  | conditional condition yes no => do
    if ← Run.lift (← eval on condition).asLogic then eval on yes else eval on no
  | binary .and left right => do
    if ← Run.lift (← eval on left).asLogic then
      return .logic (← Run.lift (← eval on right).asLogic)
    else return .logic false
  | binary .or left right => do
    if ← Run.lift (← eval on left).asLogic then return .logic true
    else return .logic (← Run.lift (← eval on right).asLogic)
  | binary op left right => do
    Run.checkpoint
    let l ← eval on left
    let r ← eval on right
    Run.lift (op.apply on.math l r)
  | unary op operand => do Run.lift (op.apply (← eval on operand))
  | convert kind operand => do Run.lift ((← eval on operand).convert kind)
  | call name _ arguments => do
    Run.checkpoint
    let values ← evalAll on arguments
    on.registry.invoke name values

def evalSegments (on : Surroundings σ) (produced : List String) :
    List (Segment Expr) → Eval σ (List String)
  | [] => return []
  | .text s :: rest => return s :: (← evalSegments on produced rest)
  | .value e :: rest => do
    Run.checkpoint
    let s := (← eval on e).asText
    return s :: (← evalSegments on (s :: produced) rest)
  | .lookBack distance position :: rest =>
    match lookBack? produced distance with
    | some s => return s :: (← evalSegments on produced rest)
    | none => throw (.malformed position .lookBackOutOfRange)

def evalFallback (on : Surroundings σ) (name : String) : Option Expr → Eval σ Value
  | none => throw (.unknownSymbol name)
  | some e => eval on e

def evalSlice (on : Surroundings σ) (text : String) : Option (Slice Expr) → Eval σ String
  | none => return text
  | some ⟨⟨startPart, startPosition⟩, none⟩ => do
    let start ← Run.lift (boundIndex startPosition (← eval on startPart))
    Run.lift (withinLength startPosition start text.length)
    return String.ofList (text.toList.drop start)
  | some ⟨⟨startPart, startPosition⟩, some ⟨countPart, countPosition⟩⟩ => do
    let start ← Run.lift (boundIndex startPosition (← eval on startPart))
    Run.lift (withinLength startPosition start text.length)
    let count ← Run.lift (boundIndex countPosition (← eval on countPart))
    Run.lift (withinLength countPosition count (text.length - start))
    return String.ofList ((text.toList.drop start).take count)

def evalAll (on : Surroundings σ) : List Expr → Eval σ (List Value)
  | [] => return []
  | e :: rest => do
    let v ← eval on e
    return v :: (← evalAll on rest)

end

end Expr

end TemplateExpr
