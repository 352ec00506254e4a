import TemplateExpr.Proofs.Evaluation.Lockstep
import TemplateExpr.Proofs.Expr.Pooling
import TemplateExpr.Proofs.Expr.Results
/-!
The templates of a parsed expression. The parser counts the values that it has read and lets a look-back through
only if it names one of them, and a nested template starts a count of its own. So in every template that is
parsed, the look-backs are in range; and only the outermost template is typed.
-/
namespace TemplateExpr

namespace Expr

def subexpr? : Expr → Path → Option Expr
  | e, [] => some e
  | e, i :: path => (e.part? i).bind fun part => part.subexpr? path

/-- Expressions whose templates are quoted ones, with every look-back in range. -/
inductive Quoted : Expr → Prop where
  | intro {e : Expr} (here : ∀ segments typed, e = template segments typed → InRange 0 segments ∧ typed = false)
      (parts : ∀ i part, e.part? i = some part → Quoted part) : Quoted e

/-- Segments behind so many values: the look-backs are in range, the values are quoted. -/
structure QuotedSegments (values : Nat) (segments : List (Segment Expr)) : Prop where
  range : InRange values segments
  parts : ∀ e, Segment.value e ∈ segments → Quoted e

theorem quoted_part {values : Nat} {segments : List (Segment Expr)} {typed : Bool} {i : Nat} {part : Expr}
    (quoted : QuotedSegments values segments) (found : (template segments typed).part? i = some part) :
    Quoted part := by
  obtain ⟨segment, there, holds⟩ := Option.bind_eq_some_iff.mp found
  cases segment with
  | value e =>
    cases holds
    exact quoted.parts part (List.mem_of_getElem? there)
  | text s => cases holds
  | lookBack distance position => cases holds

theorem quoted_template {segments : List (Segment Expr)} (quoted : QuotedSegments 0 segments) :
    Quoted (template segments false) := by
  constructor
  · intro segments' typed same
    cases same
    exact ⟨quoted.range, rfl⟩
  · intro i part found
    exact quoted_part quoted found

theorem quoted_of_parts {e : Expr} (es : List Expr) (other : ∀ segments typed, e ≠ template segments typed)
    (parts : ∀ i, e.part? i = es[i]?) (all : ∀ part ∈ es, Quoted part) : Quoted e := by
  constructor
  · intro segments typed same
    exact (other segments typed same).elim
  · intro i part found
    rw [parts] at found
    exact all part (List.mem_of_getElem? found)

theorem quoted_constant (v : Value) : Quoted (constant v) :=
  quoted_of_parts [] nofun (fun _ => rfl) (by simp)

theorem quoted_defined (name : String) : Quoted (defined name) :=
  quoted_of_parts [] nofun (fun _ => rfl) (by simp)

theorem quoted_unary (op : UnaryOp) {e : Expr} (operand : Quoted e) : Quoted (unary op e) :=
  quoted_of_parts [e] nofun (fun _ => rfl) (by simpa using operand)

theorem quoted_convert (kind : Kind) {e : Expr} (operand : Quoted e) : Quoted (convert kind e) :=
  quoted_of_parts [e] nofun (fun _ => rfl) (by simpa using operand)

theorem quoted_binary (op : BinaryOp) {l r : Expr} (left : Quoted l) (right : Quoted r) :
    Quoted (binary op l r) :=
  quoted_of_parts [l, r] nofun (fun _ => rfl) (by simp [left, right])

theorem quoted_conditional {c y n : Expr} (condition : Quoted c) (yes : Quoted y) (no : Quoted n) :
    Quoted (conditional c y n) :=
  quoted_of_parts [c, y, n] nofun (fun _ => rfl) (by simp [condition, yes, no])

theorem quoted_call (name : String) (position : Nat) {es : List Expr} (arguments : ∀ e ∈ es, Quoted e) :
    Quoted (call name position es) :=
  quoted_of_parts es nofun (fun _ => rfl) arguments

def QuotedSlice (slice : Option (Slice Expr)) : Prop :=
  ∀ s, slice = some s → Quoted s.start.part ∧ ∀ bound, s.count = some bound → Quoted bound.part

theorem quoted_reference {r : Reference Expr} (slice : QuotedSlice r.slice)
    (fallback : ∀ e, r.fallback = some e → Quoted e) : Quoted (reference r) := by
  constructor
  · intro segments typed same
    cases same
  · intro i part found
    match i with
    | 0 =>
      obtain ⟨s, there, rfl⟩ := Option.map_eq_some_iff.mp found
      exact (slice s there).1
    | 1 =>
      obtain ⟨bound, there, rfl⟩ := Option.map_eq_some_iff.mp found
      obtain ⟨s, sliced, counted⟩ := Option.bind_eq_some_iff.mp there
      exact (slice s sliced).2 bound counted
    | 2 => exact fallback part found

theorem quoted_of_ofToken? {token : Token} {apply : Expr → Expr} (found : UnaryOp.ofToken? token = some apply)
    {e : Expr} (operand : Quoted e) : Quoted (apply e) := by
  unfold UnaryOp.ofToken? at found
  split at found
  · cases found
    exact quoted_unary _ operand
  · cases found
    exact quoted_unary _ operand
  · cases found
    exact quoted_unary _ operand
  · cases found
    exact quoted_unary _ operand
  · cases found
    exact quoted_unary _ (quoted_unary _ operand)
  · cases found

theorem quoted_subexpr? {e part : Expr} {path : Path} (quoted : Quoted e)
    (found : e.subexpr? path = some part) : Quoted part := by
  induction path generalizing e with
  | nil =>
    cases found
    exact quoted
  | cons i path ih =>
    obtain ⟨next, there, rest⟩ := Option.bind_eq_some_iff.mp found
    cases quoted with
    | intro here parts => exact ih (parts i next there) rest

theorem ranged_of_quoted {e : Expr} (quoted : Quoted e) : Ranged e := by
  induction quoted with
  | intro here parts ih => exact ⟨fun segments typed same => (here segments typed same).1, ih⟩

theorem ranged_template {segments : List (Segment Expr)} (quoted : QuotedSegments 0 segments) (typed : Bool) :
    Ranged (template segments typed) := by
  constructor
  · intro segments' typed' same
    cases same
    exact quoted.range
  · intro i part found
    exact ranged_of_quoted (quoted_part quoted found)

end Expr

namespace Parser

open TemplateExpr.Expr

theorem gives_lookBack (available : Nat) : Gives (lookBack available) fun n => 1 ≤ n ∧ n ≤ available := by
  refine gives_after fun t => ?_
  split
  · rename_i numeral _
    split
    · rename_i n found
      have named := (Option.filter_eq_some_iff.mp found).2
      rw [Bool.and_eq_true, decide_eq_true_iff, decide_eq_true_iff] at named
      refine gives_after fun _ => gives_pure ?_
      omega
    · exact gives_throw _
  · exact gives_throw _

theorem gives_constant (v : Value) : Gives (constant v) Quoted :=
  gives_after fun copy => gives_pure (quoted_constant copy)

theorem gives_ofSegments (segments : List (Segment Expr)) (typed : Bool) :
    Gives (ofSegments segments typed) (· = .template segments typed) := by
  intro p e q ends
  obtain ⟨pool, made⟩ := ofSegments_eq segments typed p
  cases made.symm.trans ends
  rfl

variable (allow : String → Nat → Except Error Unit)

structure ReadsQuoted (depth : Nat) : Prop where
  segments : ∀ follow values, Gives (segments allow depth follow values) (QuotedSegments values)
  reference : Gives (reference allow depth) Quoted
  slice : Gives (slice allow depth) QuotedSlice
  fallback : Gives (fallback allow depth) fun value => ∀ e, value = some e → Quoted e
  bound : Gives (bound allow depth) fun bound => Quoted bound.part
  call : ∀ name position, Gives (call allow depth name position) Quoted
  arguments : Gives (arguments allow depth) fun es => ∀ e ∈ es, Quoted e
  expression : Gives (expression allow depth) Quoted
  binary : ∀ level, Gives (binary allow depth level) Quoted
  binaryRest : ∀ level left, Quoted left → Gives (binaryRest allow depth level left) Quoted
  operand : ∀ level, Gives (operand allow depth level) Quoted
  unary : Gives (unary allow depth) Quoted
  primary : Gives (primary allow depth) Quoted

variable {allow} {depth : Nat} (ih : ReadsQuoted allow depth)

include ih

theorem gives_value (follow : Option Char) {values : Nat} {e : Expr} (quoted : Quoted e) :
    Gives (do return .value e :: (← segments allow depth follow (values + 1))) (QuotedSegments values) := by
  refine gives_bind (ih.segments follow (values + 1)) fun rest read => gives_pure ?_
  constructor
  · exact read.range
  · intro part mem
    rcases List.mem_cons.mp mem with here | later
    · cases here
      exact quoted
    · exact read.parts part later

theorem gives_segments (follow : Option Char) (values : Nat) :
    Gives (segments allow (depth + 1) follow values) (QuotedSegments values) := by
  have none : QuotedSegments values ([] : List (Segment Expr)) := ⟨trivial, by simp⟩
  rw [segments]
  refine gives_after fun t => ?_
  split
  · refine gives_bind (ih.segments follow values) fun rest read => gives_pure ?_
    exact ⟨read.range, by simpa using read.parts⟩
  · refine gives_bind (gives_lookBack values) fun distance named => ?_
    refine gives_bind (ih.segments follow values) fun rest read => gives_pure ?_
    exact ⟨⟨named.1, named.2, read.range⟩, by simpa using read.parts⟩
  · exact gives_bind ih.reference fun e quoted => gives_value ih follow quoted
  · exact gives_bind ih.expression fun e quoted => gives_after fun _ => gives_value ih follow quoted
  · exact gives_after fun _ => gives_bind (ih.call _ _) fun e quoted => gives_value ih follow quoted
  · exact gives_pure none
  · split
    · exact gives_pure none
    · exact gives_throw _
  · exact gives_throw _

theorem gives_reference : Gives (reference allow (depth + 1)) Quoted := by
  rw [reference]
  refine gives_after fun name => gives_after fun asked => ?_
  split
  · exact gives_after fun _ => gives_pure (quoted_defined name)
  · refine gives_bind ih.slice fun slice bounds => ?_
    refine gives_after fun transforms => gives_after fun length => ?_
    refine gives_bind ih.fallback fun fallback value => ?_
    exact gives_after fun _ => gives_pure (quoted_reference bounds value)

theorem gives_slice : Gives (slice allow (depth + 1)) QuotedSlice := by
  rw [slice]
  refine gives_after fun sliced => ?_
  split
  · refine gives_bind ih.bound fun start first => gives_after fun counted => ?_
    split
    · refine gives_bind ih.bound fun count second => gives_pure ?_
      intro s same
      cases same
      exact ⟨first, fun bound same => by cases same; exact second⟩
    · refine gives_pure ?_
      intro s same
      cases same
      exact ⟨first, fun bound same => by cases same⟩
  · refine gives_pure ?_
    intro s same
    cases same

theorem gives_fallback : Gives (fallback allow (depth + 1)) fun value => ∀ e, value = some e → Quoted e := by
  rw [fallback]
  refine gives_after fun given => ?_
  split
  · refine gives_bind ih.expression fun value quoted => gives_pure ?_
    intro e same
    cases same
    exact quoted
  · refine gives_pure ?_
    intro e same
    cases same

theorem gives_bound : Gives (bound allow (depth + 1)) fun bound => Quoted bound.part := by
  rw [bound]
  exact gives_after fun t => gives_bind (ih.binary .multiplicative) fun e quoted => gives_pure quoted

theorem gives_call (name : String) (position : Nat) :
    Gives (call allow (depth + 1) name position) Quoted := by
  rw [call]
  refine gives_after fun closed => ?_
  have finish (es : List Expr) (quoted : ∀ e ∈ es, Quoted e) :
      Gives (do allowCall allow name es.length; return .call name position es) Quoted :=
    gives_after fun _ => gives_pure (quoted_call name position quoted)
  split
  · exact finish [] (by simp)
  · exact gives_bind ih.arguments finish

theorem gives_arguments : Gives (arguments allow (depth + 1)) fun es => ∀ e ∈ es, Quoted e := by
  rw [arguments]
  refine gives_bind ih.expression fun e quoted => gives_after fun more => ?_
  split
  · refine gives_bind ih.arguments fun es rest => gives_pure ?_
    simpa using ⟨quoted, rest⟩
  · exact gives_after fun _ => gives_pure (by simpa using quoted)

theorem gives_expression : Gives (expression allow (depth + 1)) Quoted := by
  rw [expression]
  refine gives_bind (ih.binary .relational) fun condition first => gives_after fun asked => ?_
  split
  · refine gives_bind ih.expression fun yes second => gives_after fun _ => ?_
    exact gives_bind ih.expression fun no third => gives_pure (quoted_conditional first second third)
  · exact gives_pure first

theorem gives_binary (level : Level) : Gives (binary allow (depth + 1) level) Quoted := by
  rw [binary]
  exact gives_bind (ih.operand level) fun left quoted => ih.binaryRest level left quoted

theorem gives_binaryRest (level : Level) (left : Expr) (quoted : Quoted left) :
    Gives (binaryRest allow (depth + 1) level left) Quoted := by
  rw [binaryRest]
  refine gives_after fun t => ?_
  split
  · refine gives_after fun _ => gives_bind (ih.operand level) fun right second => ?_
    exact ih.binaryRest level _ (quoted_binary _ quoted second)
  · exact gives_pure quoted

theorem gives_operand (level : Level) : Gives (operand allow (depth + 1) level) Quoted := by
  rw [operand]
  split
  · exact ih.binary _
  · exact ih.unary

theorem gives_unary : Gives (unary allow (depth + 1)) Quoted := by
  rw [unary]
  refine gives_after fun t => ?_
  split
  · rename_i found
    refine gives_after fun _ => gives_bind ih.unary fun e quoted => gives_pure ?_
    exact quoted_of_ofToken? found quoted
  · exact ih.primary

theorem gives_primary : Gives (primary allow (depth + 1)) Quoted := by
  rw [primary]
  refine gives_after fun t => ?_
  split
  · exact gives_constant _
  · refine gives_bind (ih.segments _ 0) fun segments read => ?_
    intro p e q ends
    rw [gives_ofSegments segments false p e q ends]
    exact quoted_template read
  · exact ih.reference
  · exact gives_bind ih.expression fun e quoted => gives_after fun _ => gives_pure quoted
  · refine gives_after fun called => ?_
    split
    · exact ih.call _ _
    · refine gives_pure (quoted_reference ?_ ?_)
      · intro s same
        cases same
      · intro e same
        cases same
  · exact gives_constant _
  · exact gives_constant _
  · split
    · refine gives_after fun _ => gives_bind ih.expression fun e quoted => ?_
      exact gives_after fun _ => gives_pure (quoted_convert _ quoted)
    · exact gives_throw _
  · exact gives_throw _

omit ih

theorem readsQuoted (allow : String → Nat → Except Error Unit) (depth : Nat) : ReadsQuoted allow depth := by
  induction depth with
  | zero => constructor <;> intros <;> exact gives_throw _
  | succ depth ih =>
    constructor
    · exact gives_segments ih
    · exact gives_reference ih
    · exact gives_slice ih
    · exact gives_fallback ih
    · exact gives_bound ih
    · exact gives_call ih
    · exact gives_arguments ih
    · exact gives_expression ih
    · exact gives_binary ih
    · exact gives_binaryRest ih
    · exact gives_operand ih
    · exact gives_unary ih
    · exact gives_primary ih

theorem quoted_of_template {source : Source} {pool : Pool} {e : Expr}
    (parsed : (template allow source pool).1 = .ok e) :
    ∃ segments, e = .template segments true ∧ QuotedSegments 0 segments := by
  unfold template at parsed
  have gives : Gives (do ofSegments (← segments allow (depthFor source) none 0) true) fun e =>
      ∃ segments, e = .template segments true ∧ QuotedSegments 0 segments := by
    refine gives_bind ((readsQuoted allow (depthFor source)).segments none 0) fun segments read => ?_
    intro p e q ends
    exact ⟨segments, gives_ofSegments segments true p e q ends, read⟩
  split at parsed
  · rename_i e' p done
    cases parsed
    exact gives _ _ _ done
  · cases parsed

end Parser

end TemplateExpr
