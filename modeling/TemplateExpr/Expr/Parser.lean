import TemplateExpr.Expr.Basic
import TemplateExpr.Token.Expression
import TemplateExpr.Token.Text
import TemplateExpr.Value.Pool
/-!
Reading templates and expressions.

  template    := (text | value | $[n])*      value := ${reference} | $(expression) | $name(arguments)
  expression  := relational (? expression : expression)?
  relational, shift, additive, multiplicative, power: binary operators, from the left
  unary       := (- | + | not | ~ | ~~) unary | primary
  primary     := numeral | true | false | quoted template | (expression) | ${reference}
               | conversion(expression) | name(arguments) | name

One token may be held back, and only of an expression. A call is put to `allow`, which knows the functions.
Constants go to a pool as they are read. The functions call each other with one unit of depth less; the
characters of the source bound the depth that can be needed.
-/
namespace TemplateExpr

inductive Level where
  | relational
  | shift
  | additive
  | multiplicative
  | power
  deriving DecidableEq

def Level.next? : Level → Option Level
  | relational => some shift
  | shift => some additive
  | additive => some multiplicative
  | multiplicative => some power
  | power => none

def Level.operator? : Level → Token → Option BinaryOp
  | relational, .symbol .equal => some .equal
  | relational, .symbol .notEqual => some .notEqual
  | relational, .symbol .less => some .less
  | relational, .symbol .greater => some .greater
  | relational, .symbol .lessEqual => some .lessEqual
  | relational, .symbol .greaterEqual => some .greaterEqual
  | relational, .keyword .isBefore => some .before
  | relational, .keyword .isAfter => some .after
  | shift, .symbol .shiftLeft => some .shiftLeft
  | shift, .symbol .shiftRight => some .shiftRight
  | shift, .keyword .or => some .or
  | shift, .symbol .pipe => some .bitOr
  | additive, .symbol .plus => some .add
  | additive, .symbol .minus => some .sub
  | additive, .keyword .xor => some .xor
  | additive, .symbol .caret => some .xor
  | multiplicative, .symbol .star => some .mul
  | multiplicative, .symbol .slash => some .div
  | multiplicative, .symbol .doubleSlash => some .divFloor
  | multiplicative, .symbol .minusSlash => some .divTrunc
  | multiplicative, .symbol .percent => some .rem
  | multiplicative, .keyword .and => some .and
  | multiplicative, .symbol .ampersand => some .bitAnd
  | power, .symbol .doubleStar => some .power
  | power, .symbol .join => some .join
  | _, _ => none

def CaseTransform.ofToken? : Token → Option CaseTransform
  | .symbol .caret => some upperFirst
  | .symbol .doubleCaret => some upper
  | .symbol .comma => some lowerFirst
  | .symbol .doubleComma => some lower
  | .symbol .tilde => some toggleFirst
  | .symbol .doubleTilde => some toggle
  | _ => none

/-- The operator before an operand. A doubled tilde is two of them. -/
def UnaryOp.ofToken? : Token → Option (Expr → Expr)
  | .symbol .minus => some (.unary .negate)
  | .symbol .plus => some (.unary .plus)
  | .keyword .not => some (.unary .not)
  | .symbol .tilde => some (.unary .complement)
  | .symbol .doubleTilde => some fun e => .unary .complement (.unary .complement e)
  | _ => none

def Kind.ofKeyword? : Keyword → Option Kind
  | .toText => some text
  | .toNumber => some number
  | .toLogic => some logic
  | .toDate => some date
  | _ => none

structure Parser where
  source : Source
  held : Option Terminal
  pool : Pool

abbrev Parse (α : Type) : Type := EStateM Error Parser α

namespace Parser

def scan (m : Scan α) : Parse α := fun p =>
  match m p.source with
  | .ok a s => .ok a { p with source := s }
  | .error e s => .error e { p with source := s }

/-- The next token of an expression, which stays the next one. -/
def peek : Parse Terminal := do
  match (← get).held with
  | some t => return t
  | none =>
    let t ← scan Token.nextExpression
    modify fun p => { p with held := some t }
    return t

def advance : Parse Terminal := do
  match (← get).held with
  | some t =>
    modify fun p => { p with held := none }
    return t
  | none => scan Token.nextExpression

def expect (symbol : Symbol) : Parse Unit := do
  let t ← advance
  unless t.token = .symbol symbol do throw t.unexpected

def expectIdentifier : Parse String := do
  let t ← advance
  if t.token = .identifier then return t.lexeme else throw t.unexpected

def eat (symbol : Symbol) : Parse Bool := do
  if (← peek).token = .symbol symbol then
    let _ ← advance
    return true
  else return false

def pooled (v : Value) : Parse Value := fun p =>
  let (interned, pool) := p.pool.intern v
  .ok interned.value { p with pool }

def constant (v : Value) : Parse Expr := return .constant (← pooled v)

def plainText? : List (Segment Expr) → Option String
  | [] => some ""
  | .text s :: rest => (plainText? rest).map (s ++ ·)
  | _ :: _ => none

def shared (copy : Value) : List (Segment Expr) → List (Segment Expr)
  | [.text _] => [.text copy.asText]
  | segments => segments

/-- A template. One without values is a constant and is pooled. -/
def ofSegments (segments : List (Segment Expr)) (typed : Bool) : Parse Expr := do
  match plainText? segments with
  | some text => return .template (shared (← pooled (.text text)) segments) typed
  | none => return .template segments typed

/-- The number and the bracket of a look-back. The number has to name one of the values before. -/
def lookBack (available : Nat) : Parse Nat := do
  let t ← advance
  match t.token with
  | .number numeral =>
    match (if numeral.plain then numeral.value.toInt64? else none).filter
        fun n => 1 ≤ n && n ≤ (available : Int) with
    | some n =>
      expect .closeBracket
      return n.toNat
    | none => throw (.malformed t.position (.lookBackWithoutValue t.lexeme))
  | _ => throw t.unexpected

def exhausted : Parse α := throw .interrupted

variable (allow : String → Nat → Except Error Unit)

def allowCall (name : String) (given : Nat) : Parse Unit :=
  match allow name given with
  | .ok () => pure ()
  | .error e => throw e

def transforms : Nat → Parse (List CaseTransform)
  | 0 => exhausted
  | depth + 1 => do
    match CaseTransform.ofToken? (← peek).token with
    | some transform =>
      let _ ← advance
      return transform :: (← transforms depth)
    | none => return []

/-- How the next text of a template that ends at `follow` is read. -/
class TextReader where
  next (follow : Option Char) : Parse Terminal

instance : TextReader := ⟨fun follow => scan (Token.nextText follow)⟩

theorem next_eq_scan (follow : Option Char) : TextReader.next follow = scan (Token.nextText follow) := rfl

variable [TextReader]

mutual

/-- The segments of a template that ends at the quote `follow`, or at the end of the source; `values`
counts the value segments before. -/
def segments (depth : Nat) (follow : Option Char) (values : Nat) : Parse (List (Segment Expr)) :=
  match depth with
  | 0 => exhausted
  | depth + 1 => do
    let t ← TextReader.next follow
    match t.token with
    | .text => return .text t.lexeme :: (← segments depth follow values)
    | .lookBackOpen =>
      let distance ← lookBack values
      return .lookBack distance t.position :: (← segments depth follow values)
    | .valueOpen =>
      let e ← reference depth
      return .value e :: (← segments depth follow (values + 1))
    | .expressionOpen =>
      let e ← expression depth
      expect .closeParen
      return .value e :: (← segments depth follow (values + 1))
    | .functionOpen =>
      expect .openParen
      let e ← call depth t.lexeme t.position
      return .value e :: (← segments depth follow (values + 1))
    | .follow => return []
    | .stop => if follow.isNone then return [] else throw t.unexpected
    | _ => throw t.unexpected

def reference (depth : Nat) : Parse Expr :=
  match depth with
  | 0 => exhausted
  | depth + 1 => do
    let name ← expectIdentifier
    if ← eat .question then
      expect .closeBrace
      return .defined name
    else
      let slice ← slice depth
      let transforms ← transforms depth
      let length ← eat .hash
      let fallback ← fallback depth
      expect .closeBrace
      return .reference { name, slice, transforms, length, fallback }

def slice (depth : Nat) : Parse (Option (Slice Expr)) :=
  match depth with
  | 0 => exhausted
  | depth + 1 => do
    if ← eat .colon then
      let start ← bound depth
      if ← eat .colon then return some ⟨start, some (← bound depth)⟩
      else return some ⟨start, none⟩
    else return none

def fallback (depth : Nat) : Parse (Option Expr) :=
  match depth with
  | 0 => exhausted
  | depth + 1 => do if ← eat .minus then return some (← expression depth) else return none

def bound (depth : Nat) : Parse (Bound Expr) :=
  match depth with
  | 0 => exhausted
  | depth + 1 => do
    let position := (← peek).position
    return ⟨← binary depth .multiplicative, position⟩

def call (depth : Nat) (name : String) (position : Nat) : Parse Expr :=
  match depth with
  | 0 => exhausted
  | depth + 1 => do
    let given ← if ← eat .closeParen then pure [] else arguments depth
    allowCall allow name given.length
    return .call name position given

def arguments (depth : Nat) : Parse (List Expr) :=
  match depth with
  | 0 => exhausted
  | depth + 1 => do
    let e ← expression depth
    if ← eat .comma then return e :: (← arguments depth)
    else
      expect .closeParen
      return [e]

def expression (depth : Nat) : Parse Expr :=
  match depth with
  | 0 => exhausted
  | depth + 1 => do
    let condition ← binary depth .relational
    if ← eat .question then
      let yes ← expression depth
      expect .colon
      return .conditional condition yes (← expression depth)
    else return condition

def binary (depth : Nat) (level : Level) : Parse Expr :=
  match depth with
  | 0 => exhausted
  | depth + 1 => do binaryRest depth level (← operand depth level)

def binaryRest (depth : Nat) (level : Level) (left : Expr) : Parse Expr :=
  match depth with
  | 0 => exhausted
  | depth + 1 => do
    match level.operator? (← peek).token with
    | some op =>
      let _ ← advance
      binaryRest depth level (.binary op left (← operand depth level))
    | none => return left

def operand (depth : Nat) (level : Level) : Parse Expr :=
  match depth with
  | 0 => exhausted
  | depth + 1 =>
    match level.next? with
    | some next => binary depth next
    | none => unary depth

def unary (depth : Nat) : Parse Expr :=
  match depth with
  | 0 => exhausted
  | depth + 1 => do
    match UnaryOp.ofToken? (← peek).token with
    | some apply =>
      let _ ← advance
      return apply (← unary depth)
    | none => primary depth

def primary (depth : Nat) : Parse Expr :=
  match depth with
  | 0 => exhausted
  | depth + 1 => do
    let t ← advance
    match t.token with
    | .number numeral => constant (.number numeral.value)
    | .quote => ofSegments (← segments depth t.lexeme.toList.head? 0) false
    | .valueOpen => reference depth
    | .symbol .openParen =>
      let e ← expression depth
      expect .closeParen
      return e
    | .identifier =>
      if ← eat .openParen then call depth t.lexeme t.position
      else return .reference { name := t.lexeme }
    | .keyword .trueValue => constant (.logic true)
    | .keyword .falseValue => constant (.logic false)
    | .keyword word =>
      match Kind.ofKeyword? word with
      | some kind =>
        expect .openParen
        let e ← expression depth
        expect .closeParen
        return .convert kind e
      | none => throw t.unexpected
    | _ => throw t.unexpected

end

/-- More than the calls that can be nested: no more than sixteen go by before a character is read. -/
def depthFor (source : Source) : Nat := 16 * (source.remaining + 2)

/-- The template that a source is. Its constants are in the pool even if it is refused later. -/
def template (source : Source) (pool : Pool) : Except Error Expr × Pool :=
  match (do ofSegments (← segments allow (depthFor source) none 0) true : Parse Expr)
      ⟨source, none, pool⟩ with
  | .ok e p => (.ok e, p.pool)
  | .error e p => (.error e, p.pool)

end Parser

end TemplateExpr
