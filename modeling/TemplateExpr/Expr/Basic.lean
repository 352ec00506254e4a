import TemplateExpr.Text.Case
import TemplateExpr.Value.Basic
/-!
The syntax of expressions. A template is a list of segments: text, values, and look-backs to values that the
same template has already produced.
-/
namespace TemplateExpr

inductive BinaryOp where
  | equal
  | notEqual
  | less
  | greater
  | lessEqual
  | greaterEqual
  | before
  | after
  | shiftLeft
  | shiftRight
  | or
  | bitOr
  | add
  | sub
  | xor
  | mul
  | div
  | divFloor
  | divTrunc
  | rem
  | and
  | bitAnd
  | power
  | join
  deriving DecidableEq

inductive UnaryOp where
  | negate
  | plus
  | not
  | complement
  deriving DecidableEq

inductive Segment (ε : Type) where
  | text (text : String)
  | value (part : ε)
  /-- The text of the value segment that lies `distance` value segments back. -/
  | lookBack (distance position : Nat)

structure Bound (ε : Type) where
  part : ε
  position : Nat

structure Slice (ε : Type) where
  start : Bound ε
  /-- None runs to the end of the text. -/
  count : Option (Bound ε)

structure Reference (ε : Type) where
  name : String
  slice : Option (Slice ε) := none
  transforms : List CaseTransform := []
  length : Bool := false
  fallback : Option ε := none

inductive Expr where
  | constant (value : Value)
  /-- A typed template that is a single value keeps the kind of that value. -/
  | template (segments : List (Segment Expr)) (typed : Bool)
  | reference (reference : Reference Expr)
  | defined (name : String)
  | conditional (condition yes no : Expr)
  | binary (op : BinaryOp) (left right : Expr)
  | unary (op : UnaryOp) (operand : Expr)
  | convert (kind : Kind) (operand : Expr)
  | call (name : String) (position : Nat) (arguments : List Expr)

end TemplateExpr
