import TemplateExpr.Expr.Parser
/-!
Properties that parsers inherit from their parts. The parser of templates is put together from a few steps: the
next text, the next token of an expression, the copies of constants and calls. What holds of these steps, of every failure that
the parser words itself, and of two parsers one after the other if it holds of both, holds of every production.
-/
namespace TemplateExpr.Parser

/-- The property `Q` of parsers holds of the steps of the parser and is kept where these are put together. -/
structure Compositional (allow : String → Nat → Except Error Unit) (Q : (α : Type) → Parse α → Prop) :
    Prop where
  pure : ∀ {α : Type} (a : α), Q α (pure a)
  bind : ∀ {α β : Type} {m : Parse α} {f : α → Parse β}, Q α m → (∀ a, Q β (f a)) → Q β (m >>= f)
  refuse : ∀ {α : Type} (position : Nat) (fault : SyntaxFault), Q α (throw (.malformed position fault))
  exhausted : ∀ {α : Type}, Q α exhausted
  text : ∀ follow, Q Terminal (scan (Token.nextText follow))
  peek : Q Terminal peek
  advance : Q Terminal advance
  pooled : ∀ v, Q Value (pooled v)
  allowCall : ∀ name given, Q Unit (allowCall allow name given)

variable (allow : String → Nat → Except Error Unit) (Q : (α : Type) → Parse α → Prop)

structure Throughout (depth : Nat) : Prop where
  segments : ∀ follow values, Q _ (segments allow depth follow values)
  reference : Q _ (reference allow depth)
  slice : Q _ (slice allow depth)
  fallback : Q _ (fallback allow depth)
  bound : Q _ (bound allow depth)
  call : ∀ name position, Q _ (call allow depth name position)
  arguments : Q _ (arguments allow depth)
  expression : Q _ (expression allow depth)
  binary : ∀ level, Q _ (binary allow depth level)
  binaryRest : ∀ level left, Q _ (binaryRest allow depth level left)
  operand : ∀ level, Q _ (operand allow depth level)
  unary : Q _ (unary allow depth)
  primary : Q _ (primary allow depth)

variable {allow Q} (steps : Compositional allow Q)

include steps

namespace Compositional

theorem unexpected {α : Type} (t : Terminal) : Q α (throw t.unexpected) := steps.refuse _ _

theorem expect (symbol : Symbol) : Q _ (expect symbol) := by
  apply steps.bind steps.advance
  intro t
  split
  · exact steps.pure _
  · exact steps.unexpected t

theorem expectIdentifier : Q _ expectIdentifier := by
  apply steps.bind steps.advance
  intro t
  split
  · exact steps.pure _
  · exact steps.unexpected t

theorem eat (symbol : Symbol) : Q _ (eat symbol) := by
  apply steps.bind steps.peek
  intro t
  split
  · exact steps.bind steps.advance fun _ => steps.pure _
  · exact steps.pure _

theorem lookBack (available : Nat) : Q _ (lookBack available) := by
  apply steps.bind steps.advance
  intro t
  split
  · split
    · exact steps.bind (steps.expect _) fun _ => steps.pure _
    · exact steps.refuse _ _
  · exact steps.unexpected t

theorem constant (v : Value) : Q _ (constant v) := steps.bind (steps.pooled v) fun _ => steps.pure _

theorem ofSegments (segments : List (Segment Expr)) (typed : Bool) : Q _ (ofSegments segments typed) := by
  unfold Parser.ofSegments
  split
  · exact steps.bind (steps.pooled _) fun _ => steps.pure _
  · exact steps.pure _

theorem transforms (depth : Nat) : Q _ (transforms depth) := by
  induction depth with
  | zero => exact steps.exhausted
  | succ depth ih =>
    apply steps.bind steps.peek
    intro t
    split
    · apply steps.bind steps.advance
      intro _
      exact steps.bind ih fun _ => steps.pure _
    · exact steps.pure _

end Compositional

section Productions

variable {depth : Nat} (ih : Throughout allow Q depth)

include ih

theorem throughout_segments (follow : Option Char) (values : Nat) :
    Q _ (segments allow (depth + 1) follow values) := by
  -- what is read behind a segment
  have rest (segment : Segment Expr) (values : Nat) :
      Q _ (do return segment :: (← segments allow depth follow values)) :=
    steps.bind (ih.segments follow values) fun _ => steps.pure _
  rw [segments]
  apply steps.bind (steps.text follow)
  intro t
  split
  · exact rest _ _
  · exact steps.bind (steps.lookBack values) fun _ => rest _ _
  · exact steps.bind ih.reference fun _ => rest _ _
  · exact steps.bind ih.expression fun _ => steps.bind (steps.expect _) fun _ => rest _ _
  · exact steps.bind (steps.expect _) fun _ => steps.bind (ih.call _ _) fun _ => rest _ _
  · exact steps.pure _
  · split
    · exact steps.pure _
    · exact steps.unexpected t
  · exact steps.unexpected t

theorem throughout_reference : Q _ (reference allow (depth + 1)) := by
  rw [reference]
  apply steps.bind steps.expectIdentifier
  intro name
  apply steps.bind (steps.eat _)
  intro asked
  split
  · exact steps.bind (steps.expect _) fun _ => steps.pure _
  · apply steps.bind ih.slice
    intro slice
    apply steps.bind (steps.transforms depth)
    intro transforms
    apply steps.bind (steps.eat _)
    intro length
    exact steps.bind ih.fallback fun _ => steps.bind (steps.expect _) fun _ => steps.pure _

theorem throughout_slice : Q _ (slice allow (depth + 1)) := by
  rw [slice]
  apply steps.bind (steps.eat _)
  intro sliced
  split
  · apply steps.bind ih.bound
    intro start
    apply steps.bind (steps.eat _)
    intro counted
    split
    · exact steps.bind ih.bound fun _ => steps.pure _
    · exact steps.pure _
  · exact steps.pure _

theorem throughout_fallback : Q _ (fallback allow (depth + 1)) := by
  rw [fallback]
  apply steps.bind (steps.eat _)
  intro given
  split
  · exact steps.bind ih.expression fun _ => steps.pure _
  · exact steps.pure _

theorem throughout_bound : Q _ (bound allow (depth + 1)) := by
  rw [bound]
  apply steps.bind steps.peek
  intro t
  exact steps.bind (ih.binary .multiplicative) fun _ => steps.pure _

theorem throughout_call (name : String) (position : Nat) :
    Q _ (call allow (depth + 1) name position) := by
  have finish (given : List Expr) :
      Q _ (do allowCall allow name given.length; return Expr.call name position given) :=
    steps.bind (steps.allowCall name given.length) fun _ => steps.pure _
  rw [call]
  apply steps.bind (steps.eat _)
  intro closed
  split
  · exact steps.bind (steps.pure _) finish
  · exact steps.bind ih.arguments finish

theorem throughout_arguments : Q _ (arguments allow (depth + 1)) := by
  rw [arguments]
  apply steps.bind ih.expression
  intro e
  apply steps.bind (steps.eat _)
  intro more
  split
  · exact steps.bind ih.arguments fun _ => steps.pure _
  · exact steps.bind (steps.expect _) fun _ => steps.pure _

theorem throughout_expression : Q _ (expression allow (depth + 1)) := by
  rw [expression]
  apply steps.bind (ih.binary .relational)
  intro condition
  apply steps.bind (steps.eat _)
  intro asked
  split
  · apply steps.bind ih.expression
    intro yes
    exact steps.bind (steps.expect _) fun _ => steps.bind ih.expression fun _ => steps.pure _
  · exact steps.pure _

theorem throughout_binaryRest (level : Level) (left : Expr) :
    Q _ (binaryRest allow (depth + 1) level left) := by
  rw [binaryRest]
  apply steps.bind steps.peek
  intro t
  split
  · apply steps.bind steps.advance
    intro _
    exact steps.bind (ih.operand level) fun _ => ih.binaryRest level _
  · exact steps.pure _

omit steps in
theorem throughout_operand (level : Level) : Q _ (operand allow (depth + 1) level) := by
  rw [operand]
  split
  · exact ih.binary _
  · exact ih.unary

theorem throughout_unary : Q _ (unary allow (depth + 1)) := by
  rw [unary]
  apply steps.bind steps.peek
  intro t
  split
  · apply steps.bind steps.advance
    intro _
    exact steps.bind ih.unary fun _ => steps.pure _
  · exact ih.primary

theorem throughout_primary : Q _ (primary allow (depth + 1)) := by
  rw [primary]
  apply steps.bind steps.advance
  intro t
  split
  · exact steps.constant _
  · exact steps.bind (ih.segments _ 0) fun _ => steps.ofSegments _ _
  · exact ih.reference
  · exact steps.bind ih.expression fun _ => steps.bind (steps.expect _) fun _ => steps.pure _
  · apply steps.bind (steps.eat _)
    intro called
    split
    · exact ih.call _ _
    · exact steps.pure _
  · exact steps.constant _
  · exact steps.constant _
  · split
    · apply steps.bind (steps.expect _)
      intro _
      exact steps.bind ih.expression fun _ => steps.bind (steps.expect _) fun _ => steps.pure _
    · exact steps.unexpected t
  · exact steps.unexpected t

end Productions

theorem throughout (depth : Nat) : Throughout allow Q depth := by
  induction depth with
  | zero => constructor <;> intros <;> exact steps.exhausted
  | succ depth ih =>
    constructor
    · exact throughout_segments steps ih
    · exact throughout_reference steps ih
    · exact throughout_slice steps ih
    · exact throughout_fallback steps ih
    · exact throughout_bound steps ih
    · exact throughout_call steps ih
    · exact throughout_arguments steps ih
    · exact throughout_expression steps ih
    · intro level
      exact steps.bind (ih.operand level) fun left => ih.binaryRest level left
    · exact throughout_binaryRest steps ih
    · exact throughout_operand ih
    · exact throughout_unary steps ih
    · exact throughout_primary steps ih

end TemplateExpr.Parser
