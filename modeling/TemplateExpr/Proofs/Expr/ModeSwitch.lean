import TemplateExpr.Proofs.Expr.Results
/-!
Texts among tokens. A token that is held back when a text is read would be lost. `readText` asserts before each text
that there is none; whatever happens when the assertion fails, the parser that reads its texts so is the same as the one
that does not look, so nothing is ever held back there.
-/
namespace TemplateExpr.Parser

/-- The next text of a template. If a token is held back, what comes is left to `alarm`. -/
def readText (alarm : Terminal → Parse Terminal) (follow : Option Char) : Parse Terminal := do
  match (← get).held with
  | some t => alarm t
  | none => scan (Token.nextText follow)

/-- The template of a source, each text read behind the assertion. -/
def Asserting.template (alarm : Terminal → Parse Terminal) (allow : String → Nat → Except Error Unit)
    (source : Source) (pool : Pool) : Except Error Expr × Pool :=
  @Parser.template allow ⟨readText alarm⟩ source pool

section Settled

theorem keeps_allowCall (allow : String → Nat → Except Error Unit) (name : String) (given : Nat) :
    Keeps (allowCall allow name given) := by
  unfold allowCall
  split
  · exact keeps_pure _
  · exact keeps_throw _

theorem settles_lookBack (available : Nat) : Settles (lookBack available) := by
  refine settles_after fun t => ?_
  split
  · split
    · exact settles_bind (settles_expect _) fun _ => keeps_pure _
    · exact settles_throw _
  · exact settles_throw _

variable (allow : String → Nat → Except Error Unit)

theorem settles_reference (depth : Nat) : Settles (reference allow depth) := by
  cases depth with
  | zero => exact settles_throw _
  | succ depth =>
    rw [reference]
    refine settles_after fun name => settles_after fun asked => ?_
    split
    · exact settles_bind (settles_expect _) fun _ => keeps_pure _
    · refine settles_after fun slice => settles_after fun transforms => settles_after fun length => ?_
      exact settles_after fun fallback => settles_bind (settles_expect _) fun _ => keeps_pure _

theorem settles_arguments (depth : Nat) : Settles (arguments allow depth) := by
  induction depth with
  | zero => exact settles_throw _
  | succ depth ih =>
    rw [arguments]
    refine settles_after fun e => settles_after fun more => ?_
    split
    · exact settles_bind ih fun es => keeps_pure _
    · exact settles_bind (settles_expect _) fun _ => keeps_pure _

theorem settles_call (depth : Nat) (name : String) (position : Nat) :
    Settles (call allow depth name position) := by
  cases depth with
  | zero => exact settles_throw _
  | succ depth =>
    have finish (es : List Expr) :
        Keeps (do allowCall allow name es.length; return Expr.call name position es) :=
      keeps_bind (keeps_allowCall allow name es.length) fun _ => keeps_pure _
    rw [call]
    apply settles_eat
    · exact finish []
    · exact settles_bind (settles_arguments allow depth) finish

end Settled

section Assertion

variable {alarm : Terminal → Parse Terminal} {allow : String → Nat → Except Error Unit}

theorem readText_settled {p : Parser} (settled : p.held = none) (follow : Option Char) :
    readText alarm follow p = scan (Token.nextText follow) p := by
  unfold readText
  change (match p.held with | some t => alarm t | none => scan (Token.nextText follow)) p = _
  rw [settled]

variable (alarm allow)

/-- The parsers of a depth with the assertion and without. Segments are the only ones that have to begin with
nothing held back. -/
structure Same (depth : Nat) : Prop where
  segments : ∀ follow values p, p.held = none →
    @segments allow ⟨readText alarm⟩ depth follow values p = segments allow depth follow values p
  reference : @reference allow ⟨readText alarm⟩ depth = reference allow depth
  slice : @slice allow ⟨readText alarm⟩ depth = slice allow depth
  fallback : @fallback allow ⟨readText alarm⟩ depth = fallback allow depth
  bound : @bound allow ⟨readText alarm⟩ depth = bound allow depth
  call : @call allow ⟨readText alarm⟩ depth = call allow depth
  arguments : @arguments allow ⟨readText alarm⟩ depth = arguments allow depth
  expression : @expression allow ⟨readText alarm⟩ depth = expression allow depth
  binary : @binary allow ⟨readText alarm⟩ depth = binary allow depth
  binaryRest : @binaryRest allow ⟨readText alarm⟩ depth = binaryRest allow depth
  operand : @operand allow ⟨readText alarm⟩ depth = operand allow depth
  unary : @unary allow ⟨readText alarm⟩ depth = unary allow depth
  primary : @primary allow ⟨readText alarm⟩ depth = primary allow depth

variable {alarm allow} {depth : Nat} (ih : Same alarm allow depth)

include ih

theorem same_segments (follow : Option Char) (values : Nat) (p : Parser) (settled : p.held = none) :
    @segments allow ⟨readText alarm⟩ (depth + 1) follow values p =
      segments allow (depth + 1) follow values p := by
  rw [segments, segments]
  refine bind_same (readText_settled settled follow) fun t q read => ?_
  have settled : q.held = none := by rw [keeps_scan _ p t q read, settled]
  rw [ih.reference, ih.expression, ih.call]
  generalize t.token = token
  cases token with
  | text => exact cons_same _ (ih.segments follow _ q settled)
  | lookBackOpen =>
    refine bind_settled (settles_lookBack values) fun distance q settled => ?_
    exact cons_same _ (ih.segments follow _ q settled)
  | valueOpen =>
    refine bind_settled (settles_reference allow depth) fun e q settled => ?_
    exact cons_same _ (ih.segments follow _ q settled)
  | expressionOpen =>
    refine bind_same rfl fun e q _ => bind_settled (settles_expect _) fun _ q settled => ?_
    exact cons_same _ (ih.segments follow _ q settled)
  | functionOpen =>
    refine bind_same rfl fun _ q _ => bind_settled (settles_call allow depth _ _) fun e q settled => ?_
    exact cons_same _ (ih.segments follow _ q settled)
  | _ => rfl

theorem same_primary : @primary allow ⟨readText alarm⟩ (depth + 1) = primary allow (depth + 1) := by
  rw [primary, primary, ih.reference, ih.expression, ih.call]
  funext p
  refine bind_settled settles_advance fun t q settled => ?_
  generalize t.token = token
  cases token with
  -- the opening quote was held back or read, so nothing is held back behind it
  | quote => exact bind_same (ih.segments _ 0 q settled) fun _ _ _ => rfl
  | keyword word => cases word <;> rfl
  | symbol symbol => cases symbol <;> rfl
  | _ => rfl

omit ih

theorem same (alarm : Terminal → Parse Terminal) (allow : String → Nat → Except Error Unit) (depth : Nat) :
    Same alarm allow depth := by
  induction depth with
  | zero => constructor <;> intros <;> rfl
  | succ depth ih =>
    constructor
    · exact same_segments ih
    · rw [reference, reference, ih.slice, ih.fallback]
    · rw [slice, slice, ih.bound]
    · rw [fallback, fallback, ih.expression]
    · rw [bound, bound, ih.binary]
    · funext name position
      rw [call, call, ih.arguments]
    · rw [arguments, arguments, ih.expression, ih.arguments]
    · rw [expression, expression, ih.binary, ih.expression]
    · funext level
      rw [binary, binary, ih.binaryRest, ih.operand]
    · funext level left
      rw [binaryRest, ih.binaryRest, ih.operand]
      rfl
    · funext level
      rw [operand, ih.binary, ih.unary]
      rfl
    · rw [unary, ih.unary, ih.primary]
      rfl
    · exact same_primary ih

end Assertion

/-- No token is lost where a text begins. Whenever the parser reads a text it holds nothing back, so whatever an
assertion of that does if it fails, the result is the same with and without it. -/
theorem asserting_template (alarm : Terminal → Parse Terminal) (allow : String → Nat → Except Error Unit)
    (source : Source) (pool : Pool) :
    Asserting.template alarm allow source pool = template allow source pool := by
  have read := (same alarm allow (depthFor source)).segments none 0 ⟨source, none, pool⟩ rfl
  rw [Asserting.template, Parser.template, bind_same read fun _ _ _ => rfl]
  rfl

end TemplateExpr.Parser
