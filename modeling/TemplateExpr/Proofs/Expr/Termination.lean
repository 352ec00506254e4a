import TemplateExpr.Proofs.Expr.Exhaustion
import TemplateExpr.Proofs.Expr.Tokens
import TemplateExpr.Proofs.Token.Progress
/-!
The loops of the parser end. Every round of a loop takes a token other than the stop, so that less is left to read,
and between two such tokens the productions call each other downwards only, from an argument to a primary. So the
parser does not need more depth than what is left to read allows for: with that much it is never short of depth, and
more makes no difference.
-/
namespace TemplateExpr

theorem Source.read_ne_interrupted {s t : Source} : read s ≠ .error .interrupted t := by
  intro failed
  unfold read fetch at failed
  grind

theorem Scan.OnlyReads.ne_interrupted {α : Type} {scan : Scan α} (reads : OnlyReads scan) {s t : Source} {e : Error}
    (failed : scan s = .error e t) : e ≠ .interrupted := by
  rintro rfl
  obtain ⟨u, _, failed⟩ := reads.fault s .interrupted t failed id
  exact Source.read_ne_interrupted failed

namespace Parser

def weight (t : Terminal) : Nat := if t.token = .stop then 0 else 1

theorem weight_pos {t : Terminal} (more : t.token ≠ .stop) : weight t = 1 := if_neg more

/-- How much is left to read, a token held back included. -/
def pending (p : Parser) : Nat := p.source.remaining + (p.held.map weight).getD 0

variable {α β : Type} {m m' : Parse α} {f f' : α → Parse β} {p q : Parser} {n : Nat}

section Ends

/-- Both parsers end alike, and not for want of depth. -/
inductive Ends (m m' : Parse α) (p : Parser) (holds : α → Parser → Prop) : Prop where
  | ok {a : α} {q : Parser} (done : m p = .ok a q) (same : m' p = .ok a q) (here : holds a q)
  | error {e : Error} {q : Parser} (failed : m p = .error e q) (same : m' p = .error e q)
      (other : e ≠ .interrupted)

variable {holds holds' : α → Parser → Prop} {last : β → Parser → Prop}

theorem Ends.mono (ends : Ends m m' p holds) (weaker : ∀ a q, holds a q → holds' a q) : Ends m m' p holds' := by
  cases ends with
  | ok done same here => exact .ok done same (weaker _ _ here)
  | error failed same other => exact .error failed same other

theorem ends_bind (first : Ends m m' p holds) (rest : ∀ a q, holds a q → Ends (f a) (f' a) q last) :
    Ends (m >>= f) (m' >>= f') p last := by
  cases first with
  | error failed same other => exact .error (run_bind_error failed) (run_bind_error same) other
  | ok done same here =>
    cases rest _ _ here with
    | ok later same' there => exact .ok ((run_bind done).trans later) ((run_bind same).trans same') there
    | error later same' other => exact .error ((run_bind done).trans later) ((run_bind same).trans same') other

theorem ends_pure {a : α} (here : holds a p) : Ends (pure a) (pure a) p holds := .ok rfl rfl here

theorem ends_return (first : Ends m m' p fun _ q => q.pending ≤ n) (g : α → β) :
    Ends (do return g (← m)) (do return g (← m')) p fun _ q => q.pending ≤ n :=
  ends_bind first fun _ _ within => ends_pure within

theorem ends_throw {e : Error} (other : e ≠ .interrupted) : Ends (throw e) (throw e) p holds :=
  .error rfl rfl other

theorem ends_unexpected (t : Terminal) : Ends (throw t.unexpected) (throw t.unexpected) p holds := ends_throw nofun

theorem ends_ite {c : Prop} [Decidable c] {k k' : Parse α} (yes : c → Ends m m' p holds)
    (no : ¬ c → Ends k k' p holds) : Ends (if c then m else k) (if c then m' else k') p holds := by
  split
  · exact yes (by assumption)
  · exact no (by assumption)

end Ends

section Steps

theorem remaining_next (mode : Token.Mode) {s u : Source} {t : Terminal} (done : mode.next s = .ok t u) :
    u.remaining + weight t ≤ s.remaining := by
  have reached := (mode.onlyReads_next.moves s t u done).position_le
  unfold weight
  split
  · omega
  · rename_i more
    have further := (Token.Mode.advances done).further more
    omega

theorem ends_text (within : p.pending ≤ n) (follow : Option Char) :
    Ends (scan (Token.nextText follow)) (scan (Token.nextText follow)) p fun t q => q.pending + weight t ≤ n := by
  cases done : Token.nextText follow p.source with
  | ok t u =>
    have ran : scan (Token.nextText follow) p = .ok t { p with source := u } := by rw [scan, done]
    have less : u.remaining + weight t ≤ p.source.remaining := remaining_next (.text follow) done
    refine .ok ran ran ?_
    unfold pending at within ⊢
    dsimp only
    omega
  | error e u =>
    have ran : scan (Token.nextText follow) p = .error e { p with source := u } := by rw [scan, done]
    exact .error ran ran ((Token.onlyReads_nextText follow).ne_interrupted done)

theorem upcoming_remaining {t : Terminal} {s : Source} (next : upcoming p = .ok t s) :
    s.remaining + weight t ≤ p.pending := by
  unfold upcoming at next
  unfold pending
  cases held : p.held with
  | some t' =>
    rw [held] at next
    cases next
    simp
  | none =>
    rw [held] at next
    simpa using remaining_next .expression next

theorem upcoming_ne_interrupted {e : Error} {s : Source} (failed : upcoming p = .error e s) : e ≠ .interrupted := by
  unfold upcoming at failed
  split at failed
  · cases failed
  · exact Token.onlyReads_nextExpression.ne_interrupted failed

theorem ends_advance (within : p.pending ≤ n) :
    Ends advance advance p fun t q => q.pending + weight t ≤ n := by
  cases next : upcoming p with
  | ok t s =>
    have ran := advance_of_upcoming next
    have less := upcoming_remaining next
    exact .ok ran ran (by simpa [pending] using Nat.le_trans less within)
  | error e s =>
    have ran := (advance_peek_error next).1
    exact .error ran ran (upcoming_ne_interrupted next)

theorem ends_peek (within : p.pending ≤ n) :
    Ends peek peek p fun t q => q.held = some t ∧ q.pending ≤ n := by
  cases next : upcoming p with
  | ok t s =>
    have ran := peek_of_upcoming next
    have less := upcoming_remaining next
    exact .ok ran ran ⟨rfl, by simpa [pending] using Nat.le_trans less within⟩
  | error e s =>
    have ran := (advance_peek_error next).2
    exact .error ran ran (upcoming_ne_interrupted next)

theorem ends_held {t : Terminal} (held : p.held = some t) (more : t.token ≠ .stop) (within : p.pending ≤ n) :
    Ends advance advance p fun _ q => q.pending < n := by
  have next : upcoming p = .ok t p.source := by rw [upcoming, held]
  have ran := advance_of_upcoming next
  have less := upcoming_remaining next
  rw [weight_pos more] at less
  refine .ok ran ran ?_
  simp only [pending, Option.map_none, Option.getD_none] at within less ⊢
  omega

theorem ends_expect (within : p.pending ≤ n) (symbol : Symbol) :
    Ends (expect symbol) (expect symbol) p fun _ q => q.pending < n := by
  refine ends_bind (ends_advance within) fun t q less => ends_ite (fun same => ?_) fun _ => ends_unexpected t
  rw [weight_pos (by rw [same]; nofun)] at less
  exact ends_pure less

theorem ends_closed (within : p.pending ≤ n) (symbol : Symbol) (a : α) :
    Ends (do expect symbol; return a) (do expect symbol; return a) p fun _ q => q.pending ≤ n :=
  ends_bind (ends_expect within symbol) fun _ _ less => ends_pure (Nat.le_of_lt less)

theorem ends_expectIdentifier (within : p.pending ≤ n) :
    Ends expectIdentifier expectIdentifier p fun _ q => q.pending < n := by
  refine ends_bind (ends_advance within) fun t q less => ends_ite (fun same => ?_) fun _ => ends_unexpected t
  rw [weight_pos (by rw [same]; nofun)] at less
  exact ends_pure less

theorem ends_eat (within : p.pending ≤ n) (symbol : Symbol) :
    Ends (eat symbol) (eat symbol) p fun eaten q => q.pending ≤ n ∧ (eaten = true → q.pending < n) := by
  refine ends_bind (ends_peek within) fun t q seen => ends_ite (fun same => ?_) fun _ => ?_
  · refine ends_bind (ends_held seen.1 (by rw [same]; nofun) seen.2) fun _ q less => ?_
    exact ends_pure ⟨Nat.le_of_lt less, fun _ => less⟩
  · exact ends_pure ⟨seen.2, nofun⟩

theorem ends_lookBack (within : p.pending ≤ n) (available : Nat) :
    Ends (lookBack available) (lookBack available) p fun _ q => q.pending ≤ n := by
  refine ends_bind (ends_advance within) fun t q less => ?_
  split
  · split
    · exact ends_closed (Nat.le_of_add_right_le less) _ _
    · exact ends_throw nofun
  · exact ends_unexpected t

theorem ends_constant (within : p.pending ≤ n) (v : Value) :
    Ends (constant v) (constant v) p fun _ q => q.pending ≤ n :=
  .ok (constant_eq v p) (constant_eq v p) within

theorem ends_ofSegments (within : p.pending ≤ n) (segments : List (Segment Expr)) (typed : Bool) :
    Ends (ofSegments segments typed) (ofSegments segments typed) p fun _ q => q.pending ≤ n := by
  obtain ⟨pool, made⟩ := ofSegments_eq segments typed p
  exact .ok made made within

theorem ends_allowCall {allow : String → Nat → Except Error Unit}
    (proper : ∀ name given, allow name given ≠ .error .interrupted) (within : p.pending ≤ n) (name : String)
    (given : Nat) : Ends (allowCall allow name given) (allowCall allow name given) p fun _ q => q.pending ≤ n := by
  unfold allowCall
  split
  · exact ends_pure within
  · rename_i e refused
    exact ends_throw fun interrupted => proper name given (interrupted ▸ refused)

end Steps

section Productions

/-- Calls from an operand of the level down to a primary, and one. -/
def rank : Level → Nat
  | .relational => 11
  | .shift => 9
  | .additive => 7
  | .multiplicative => 5
  | .power => 3

theorem rank_bounds (level : Level) : 2 < rank level ∧ rank level < 12 := by cases level <;> decide

theorem rank_next {level next : Level} (stronger : level.next? = some next) : rank next + 2 = rank level := by
  cases level <;> cases stronger <;> rfl

/-- A depth fits a production of a rank if it is left with the rank once each token to come has had sixteen calls.
There the production ends as it does one deeper, and leaves no more to read than there was. -/
def Fits (rank depth : Nat) (m m' : Parse α) : Prop :=
  ∀ n p, p.pending ≤ n → 16 * n + rank ≤ depth → Ends m m' p fun _ q => q.pending ≤ n

theorem fits_zero {rank : Nat} (positive : 0 < rank) : Fits rank 0 m m' := by
  intro n p within deep
  omega

theorem ends_behind {rank depth : Nat} (deep : 16 * n + (rank + 1) ≤ depth + 1) (less : q.pending < n)
    (rest : ∀ k, q.pending ≤ k → 16 * k + 16 ≤ depth → Ends m m' q fun _ r => r.pending ≤ k) :
    Ends m m' q fun _ r => r.pending ≤ n := by
  refine (rest (n - 1) (by omega) (by omega)).mono fun _ r within => ?_
  omega

theorem ofToken?_ne_stop {t : Terminal} {transform : CaseTransform}
    (found : CaseTransform.ofToken? t.token = some transform) : t.token ≠ .stop := by
  intro stop
  rw [stop] at found
  cases found

theorem fits_transforms (depth : Nat) : Fits 1 depth (transforms depth) (transforms (depth + 1)) := by
  induction depth with
  | zero => exact fits_zero Nat.one_pos
  | succ depth ih =>
    intro n p within deep
    rw [transforms, transforms]
    refine ends_bind (ends_peek within) fun t q seen => ?_
    split
    · rename_i transform found
      refine ends_bind (ends_held seen.1 (ofToken?_ne_stop found) seen.2) fun _ q less => ?_
      refine ends_behind deep less fun k within deep => ?_
      exact ends_return (ih k q within (by omega)) _
    · exact ends_pure seen.2

variable (allow : String → Nat → Except Error Unit)

structure Enough (depth : Nat) : Prop where
  segments : ∀ follow values, Fits 1 depth (segments allow depth follow values)
    (segments allow (depth + 1) follow values)
  reference : Fits 1 depth (reference allow depth) (reference allow (depth + 1))
  slice : Fits 1 depth (slice allow depth) (slice allow (depth + 1))
  fallback : Fits 1 depth (fallback allow depth) (fallback allow (depth + 1))
  bound : Fits 7 depth (bound allow depth) (bound allow (depth + 1))
  call : ∀ name position, Fits 15 depth (call allow depth name position) (call allow (depth + 1) name position)
  arguments : Fits 14 depth (arguments allow depth) (arguments allow (depth + 1))
  expression : Fits 13 depth (expression allow depth) (expression allow (depth + 1))
  binary : ∀ level, Fits (rank level + 1) depth (binary allow depth level) (binary allow (depth + 1) level)
  binaryRest : ∀ level left, Fits 1 depth (binaryRest allow depth level left)
    (binaryRest allow (depth + 1) level left)
  operand : ∀ level, Fits (rank level) depth (operand allow depth level) (operand allow (depth + 1) level)
  unary : Fits 2 depth (unary allow depth) (unary allow (depth + 1))
  primary : Fits 1 depth (primary allow depth) (primary allow (depth + 1))

variable {allow} {depth : Nat} (ih : Enough allow depth)

include ih

theorem fits_segments (follow : Option Char) (values : Nat) :
    Fits 1 (depth + 1) (segments allow (depth + 1) follow values) (segments allow (depth + 1 + 1) follow values) := by
  intro n p within deep
  rw [segments, segments]
  refine ends_bind (ends_text within follow) fun t q less => ?_
  by_cases stop : t.token = .stop
  · rw [stop]
    exact ends_ite (fun _ => ends_pure (Nat.le_of_add_right_le less)) fun _ => ends_unexpected t
  rw [weight_pos stop] at less
  refine ends_behind deep less fun k within deep => ?_
  -- what is read behind a segment
  have rest (segment : Segment Expr) (values : Nat) (q : Parser) (within : q.pending ≤ k) :
      Ends (do return segment :: (← segments allow depth follow values))
        (do return segment :: (← segments allow (depth + 1) follow values)) q fun _ r => r.pending ≤ k :=
    ends_return (ih.segments follow values k q within (by omega)) _
  generalize t.token = token at stop
  cases token with
  | text => exact rest _ _ q within
  | lookBackOpen => exact ends_bind (ends_lookBack within values) fun _ q within => rest _ _ q within
  | valueOpen => exact ends_bind (ih.reference k q within (by omega)) fun _ q within => rest _ _ q within
  | expressionOpen =>
    refine ends_bind (ih.expression k q within (by omega)) fun _ q within => ?_
    exact ends_bind (ends_expect within _) fun _ q less => rest _ _ q (Nat.le_of_lt less)
  | functionOpen =>
    refine ends_bind (ends_expect within _) fun _ q less => ?_
    exact ends_bind (ih.call _ _ k q (Nat.le_of_lt less) (by omega)) fun _ q within => rest _ _ q within
  | follow => exact ends_pure within
  | stop => exact absurd rfl stop
  | number | identifier | quote | keyword | symbol => exact ends_unexpected t

theorem fits_reference : Fits 1 (depth + 1) (reference allow (depth + 1)) (reference allow (depth + 1 + 1)) := by
  intro n p within deep
  rw [reference, reference]
  refine ends_bind (ends_expectIdentifier within) fun name q less => ?_
  refine ends_behind deep less fun k within deep => ?_
  refine ends_bind (ends_eat within _) fun asked q eaten => ends_ite (fun _ => ?_) fun _ => ?_
  · exact ends_closed eaten.1 _ _
  · refine ends_bind (ih.slice k q eaten.1 (by omega)) fun slice q within => ?_
    refine ends_bind (fits_transforms depth k q within (by omega)) fun transforms q within => ?_
    refine ends_bind (ends_eat within _) fun length q eaten => ?_
    refine ends_bind (ih.fallback k q eaten.1 (by omega)) fun fallback q within => ?_
    exact ends_closed within _ _

theorem fits_slice : Fits 1 (depth + 1) (slice allow (depth + 1)) (slice allow (depth + 1 + 1)) := by
  intro n p within deep
  rw [slice, slice]
  refine ends_bind (ends_eat within _) fun sliced q eaten => ends_ite (fun yes => ?_) fun _ => ends_pure eaten.1
  refine ends_behind deep (eaten.2 yes) fun k within deep => ?_
  refine ends_bind (ih.bound k q within (by omega)) fun start q within => ?_
  refine ends_bind (ends_eat within _) fun counted q eaten => ends_ite (fun _ => ?_) fun _ => ends_pure eaten.1
  exact ends_return (ih.bound k q eaten.1 (by omega)) _

theorem fits_fallback : Fits 1 (depth + 1) (fallback allow (depth + 1)) (fallback allow (depth + 1 + 1)) := by
  intro n p within deep
  rw [fallback, fallback]
  refine ends_bind (ends_eat within _) fun given q eaten => ends_ite (fun yes => ?_) fun _ => ends_pure eaten.1
  refine ends_behind deep (eaten.2 yes) fun k within deep => ?_
  exact ends_return (ih.expression k q within (by omega)) _

theorem fits_bound : Fits 7 (depth + 1) (bound allow (depth + 1)) (bound allow (depth + 1 + 1)) := by
  intro n p within deep
  rw [bound, bound]
  refine ends_bind (ends_peek within) fun t q seen => ?_
  exact ends_return (ih.binary .multiplicative n q seen.2 (Nat.le_of_succ_le_succ deep)) _

theorem fits_call (proper : ∀ name given, allow name given ≠ .error .interrupted) (name : String) (position : Nat) :
    Fits 15 (depth + 1) (call allow (depth + 1) name position) (call allow (depth + 1 + 1) name position) := by
  intro n p within deep
  have finish (given : List Expr) (q : Parser) (within : q.pending ≤ n) :
      Ends (do allowCall allow name given.length; return Expr.call name position given)
        (do allowCall allow name given.length; return Expr.call name position given) q fun _ r => r.pending ≤ n :=
    ends_return (ends_allowCall proper within name given.length) _
  rw [call, call]
  refine ends_bind (ends_eat within _) fun closed q eaten => ends_ite (fun _ => ?_) fun _ => ?_
  · exact finish [] q eaten.1
  · exact ends_bind (ih.arguments n q eaten.1 (by omega)) fun given q within => finish given q within

theorem fits_arguments : Fits 14 (depth + 1) (arguments allow (depth + 1)) (arguments allow (depth + 1 + 1)) := by
  intro n p within deep
  rw [arguments, arguments]
  refine ends_bind (ih.expression n p within (by omega)) fun e q within => ?_
  refine ends_bind (ends_eat within _) fun more q eaten => ends_ite (fun yes => ?_) fun _ => ?_
  · refine ends_behind deep (eaten.2 yes) fun k within deep => ?_
    exact ends_return (ih.arguments k q within (by omega)) _
  · exact ends_closed eaten.1 _ _

theorem fits_expression : Fits 13 (depth + 1) (expression allow (depth + 1)) (expression allow (depth + 1 + 1)) := by
  intro n p within deep
  rw [expression, expression]
  refine ends_bind (ih.binary .relational n p within (Nat.le_of_succ_le_succ deep)) fun condition q within => ?_
  refine ends_bind (ends_eat within _) fun asked q eaten => ends_ite (fun yes => ?_) fun _ => ends_pure eaten.1
  refine ends_behind deep (eaten.2 yes) fun k within deep => ?_
  refine ends_bind (ih.expression k q within (by omega)) fun yes q within => ?_
  refine ends_bind (ends_expect within _) fun _ q less => ?_
  exact ends_return (ih.expression k q (Nat.le_of_lt less) (by omega)) _

theorem fits_binary (level : Level) :
    Fits (rank level + 1) (depth + 1) (binary allow (depth + 1) level) (binary allow (depth + 1 + 1) level) := by
  intro n p within deep
  have bounds := rank_bounds level
  rw [binary, binary]
  refine ends_bind (ih.operand level n p within (by omega)) fun left q within => ?_
  exact ih.binaryRest level left n q within (by omega)

omit ih in
theorem operator?_ne_stop {level : Level} {t : Terminal} {op : BinaryOp} (found : level.operator? t.token = some op) :
    t.token ≠ .stop := by
  intro stop
  rw [stop] at found
  cases level <;> cases found

theorem fits_binaryRest (level : Level) (left : Expr) :
    Fits 1 (depth + 1) (binaryRest allow (depth + 1) level left) (binaryRest allow (depth + 1 + 1) level left) := by
  intro n p within deep
  have bounds := rank_bounds level
  rw [binaryRest, binaryRest]
  refine ends_bind (ends_peek within) fun t q seen => ?_
  split
  · rename_i op found
    refine ends_bind (ends_held seen.1 (operator?_ne_stop found) seen.2) fun _ q less => ?_
    refine ends_behind deep less fun k within deep => ?_
    refine ends_bind (ih.operand level k q within (by omega)) fun right q within => ?_
    exact ih.binaryRest level _ k q within (by omega)
  · exact ends_pure seen.2

theorem fits_operand (level : Level) :
    Fits (rank level) (depth + 1) (operand allow (depth + 1) level) (operand allow (depth + 1 + 1) level) := by
  intro n p within deep
  have bounds := rank_bounds level
  rw [operand, operand]
  split
  · rename_i next stronger
    have above := rank_next stronger
    exact ih.binary next n p within (by omega)
  · exact ih.unary n p within (by omega)

omit ih in
theorem unary_ne_stop {t : Terminal} {apply : Expr → Expr} (found : UnaryOp.ofToken? t.token = some apply) :
    t.token ≠ .stop := by
  intro stop
  rw [stop] at found
  cases found

theorem fits_unary : Fits 2 (depth + 1) (unary allow (depth + 1)) (unary allow (depth + 1 + 1)) := by
  intro n p within deep
  rw [unary, unary]
  refine ends_bind (ends_peek within) fun t q seen => ?_
  split
  · rename_i apply found
    refine ends_bind (ends_held seen.1 (unary_ne_stop found) seen.2) fun _ q less => ?_
    refine ends_behind deep less fun k within deep => ?_
    exact ends_return (ih.unary k q within (by omega)) _
  · exact ih.primary n q seen.2 (by omega)

theorem fits_primary : Fits 1 (depth + 1) (primary allow (depth + 1)) (primary allow (depth + 1 + 1)) := by
  intro n p within deep
  rw [primary, primary]
  refine ends_bind (ends_advance within) fun t q less => ?_
  by_cases stop : t.token = .stop
  · rw [stop]
    exact ends_unexpected t
  rw [weight_pos stop] at less
  refine ends_behind deep less fun k within deep => ?_
  have conversion (kind : Kind) :
      Ends (do expect .openParen; let e ← expression allow depth; expect .closeParen; return Expr.convert kind e)
        (do expect .openParen; let e ← expression allow (depth + 1); expect .closeParen; return Expr.convert kind e)
        q fun _ r => r.pending ≤ k := by
    refine ends_bind (ends_expect within _) fun _ q less => ?_
    refine ends_bind (ih.expression k q (Nat.le_of_lt less) (by omega)) fun e q within => ?_
    exact ends_closed within _ _
  generalize t.token = token
  cases token with
  | number numeral => exact ends_constant within _
  | quote =>
    refine ends_bind (ih.segments _ 0 k q within (by omega)) fun segments q within => ?_
    exact ends_ofSegments within _ _
  | valueOpen => exact ih.reference k q within (by omega)
  | identifier =>
    refine ends_bind (ends_eat within _) fun called q eaten => ends_ite (fun _ => ?_) fun _ => ends_pure eaten.1
    exact ih.call _ _ k q eaten.1 (by omega)
  | keyword word =>
    cases word with
    | trueValue | falseValue => exact ends_constant within _
    | toText => exact conversion .text
    | toNumber => exact conversion .number
    | toLogic => exact conversion .logic
    | toDate => exact conversion .date
    | and | or | not | xor | isBefore | isAfter => exact ends_unexpected t
  | symbol symbol =>
    cases symbol with
    | openParen =>
      refine ends_bind (ih.expression k q within (by omega)) fun e q within => ?_
      exact ends_closed within _ _
    | _ => exact ends_unexpected t
  | _ => exact ends_unexpected t

omit ih

theorem enough (proper : ∀ name given, allow name given ≠ .error .interrupted) (depth : Nat) :
    Enough allow depth := by
  induction depth with
  | zero =>
    constructor <;> intros <;> refine fits_zero ?_
    case operand level => exact Nat.zero_lt_of_lt (rank_bounds level).1
    all_goals exact Nat.succ_pos _
  | succ depth ih =>
    constructor
    · exact fits_segments ih
    · exact fits_reference ih
    · exact fits_slice ih
    · exact fits_fallback ih
    · exact fits_bound ih
    · exact fits_call ih proper
    · exact fits_arguments ih
    · exact fits_expression ih
    · exact fits_binary ih
    · exact fits_binaryRest ih
    · exact fits_operand ih
    · exact fits_unary ih
    · exact fits_primary ih

end Productions

section Loops

/-- With so much depth or more the parser always ends the same, and never for want of depth. -/
def Suffices (depth : Nat) (m : Nat → Parse α) (p : Parser) : Prop :=
  ∀ more, depth ≤ more → m more p = m depth p ∧ ∀ e q, m more p = .error e q → e ≠ .interrupted

theorem suffices_of_fits {rank depth : Nat} {m : Nat → Parse α} (fits : ∀ depth, Fits rank depth (m depth) (m (depth + 1)))
    (deep : 16 * p.pending + rank ≤ depth) : Suffices depth m p := by
  intro more longer
  have ends (d : Nat) (longer : depth ≤ d) : Ends (m d) (m (d + 1)) p fun _ q => q.pending ≤ p.pending :=
    fits d p.pending p (Nat.le_refl _) (Nat.le_trans deep longer)
  constructor
  · induction more, longer using Nat.le_induction with
    | base => rfl
    | succ d longer ih =>
      rw [← ih]
      cases ends d longer with
      | ok done same => rw [done, same]
      | error failed same => rw [failed, same]
  · intro e q failed
    cases ends more longer with
    | ok done => cases done.symm.trans failed
    | error failed' _ other =>
      cases failed'.symm.trans failed
      exact other

variable (allow : String → Nat → Except Error Unit)

/-- A depth that suffices for the four loops of the parser: over the segments of a template, the suffixes of a variable,
the arguments of a call and the operators of a level. -/
structure LoopsEnd (depth : Nat) (p : Parser) : Prop where
  segments : ∀ follow values, Suffices depth (fun d => segments allow d follow values) p
  transforms : Suffices depth transforms p
  arguments : Suffices depth (arguments allow) p
  binaryRest : ∀ level left, Suffices depth (fun d => binaryRest allow d level left) p

variable {allow}

theorem loopsEnd (proper : ∀ name given, allow name given ≠ .error .interrupted) {depth : Nat}
    (deep : 16 * (p.pending + 1) ≤ depth) : LoopsEnd allow depth p := by
  constructor
  · exact fun follow values => suffices_of_fits (fun d => (enough proper d).segments follow values) (by omega)
  · exact suffices_of_fits fits_transforms (by omega)
  · exact suffices_of_fits (fun d => (enough proper d).arguments) (by omega)
  · exact fun level left => suffices_of_fits (fun d => (enough proper d).binaryRest level left) (by omega)

theorem template_ne_interrupted (proper : ∀ name given, allow name given ≠ .error .interrupted) (source : Source)
    (pool : Pool) : (template allow source pool).1 ≠ .error .interrupted := by
  have deep : 16 * (pending ⟨source, none, pool⟩ + 1) ≤ depthFor source := by
    change 16 * (source.remaining + 0 + 1) ≤ 16 * (source.remaining + 2)
    omega
  obtain ⟨_, other⟩ := (loopsEnd proper deep).segments none 0 _ (Nat.le_refl _)
  intro failed
  unfold template at failed
  split at failed
  · cases failed
  · rename_i e q refused
    cases failed
    rcases bind_error refused with early | ⟨ss, r, _, late⟩
    · exact other _ _ early rfl
    · obtain ⟨pool', made⟩ := ofSegments_eq ss true r
      cases made.symm.trans late

end Loops

open Token

/-- However the two ways of reading a template alternate, from whatever source: a call brings the stop where the source
is over, or fails, or takes the source on, and no text is empty. So a text is over, or has failed, by the call behind
as many as it has characters; and the loops of the parser end, for they need no more depth than what is left to read
allows for. -/
theorem reading_ends :
    (∀ (mode : Mode) (s u : Source) (t : Terminal), mode.next s = .ok t u →
      t.token = .stop ∧ u.current = none ∨ t.token ≠ .stop ∧ s.position < u.position) ∧
    (∀ (follow : Option Char) (s u : Source) (t : Terminal), nextText follow s = .ok t u → t.token = .text →
      t.lexeme ≠ "") ∧
    (∀ (limit : Nat) (text : String) (s : Source) (modes : List Mode), Source.ofText limit text = .ok s →
      text.length < modes.length →
      ∃ front mode back u, modes = front ++ mode :: back ∧ front.length ≤ text.length ∧ Passes s front u ∧
        Halts mode u) ∧
    ∀ allow : String → Nat → Except Error Unit, (∀ name given, allow name given ≠ .error .interrupted) →
      (∀ p, LoopsEnd allow (16 * (p.pending + 1)) p) ∧
        ∀ source pool, (template allow source pool).1 ≠ .error .interrupted := by
  refine ⟨?_, fun _ _ _ _ => nextText_text_ne_empty, fun _ _ _ _ => halts_within, ?_⟩
  · intro mode s u t done
    have advances := Mode.advances done
    by_cases stop : t.token = .stop
    · exact .inl ⟨stop, advances.stop stop⟩
    · exact .inr ⟨stop, advances.further stop⟩
  · intro allow proper
    exact ⟨fun p => loopsEnd proper (Nat.le_refl _), template_ne_interrupted proper⟩

theorem check_ne_interrupted {σ : Type} (registry : Registry σ) (name : String) (given : Nat) :
    registry.check name given ≠ .error .interrupted := by
  intro refused
  obtain ⟨fault, same⟩ := Session.check_error refused
  cases same

/-- A text that is nothing but a backslash. -/
theorem reading_ends_lone_backslash :
    ∃ s t u, Source.ofText 16 "\\" = .ok s ∧ nextText none s = .ok t u ∧ t.lexeme ≠ "" ∧
      s.position < u.position ∧
      (∃ front mode back v, [Mode.text none, .expression] = front ++ mode :: back ∧ front.length ≤ 1 ∧
        Passes s front v ∧ Halts mode v) ∧
      LoopsEnd ({} : Registry Unit).check 32 ⟨s, none, {}⟩ ∧
      (template ({} : Registry Unit).check s {}).1 ≠ .error .interrupted := by
  obtain ⟨step, nonempty, within, loops⟩ := reading_ends
  have chars : "\\".toList = ['\\'] := by decide
  have opened : Source.ofText 16 "\\" = .ok (Source.before 16 1 ['\\']) :=
    Source.ofText_before (by decide) (by simp [chars])
  have reads : (match nextText none (Source.before 16 1 ['\\']) with
      | .ok t _ => decide (t.token = .text)
      | .error _ _ => false) = true := by decide +kernel
  cases done : nextText none (Source.before 16 1 ['\\']) with
  | error e u =>
    rw [done] at reads
    cases reads
  | ok t u =>
    rw [done] at reads
    have text : t.token = .text := of_decide_eq_true reads
    rcases step (.text none) _ u t done with ⟨stop, _⟩ | ⟨_, further⟩
    · cases stop.symm.trans text
    · obtain ⟨loops, template⟩ := loops ({} : Registry Unit).check (check_ne_interrupted _)
      exact ⟨_, t, u, opened, done, nonempty none _ u t done text, further,
        within 16 "\\" _ [.text none, .expression] opened (by decide), loops ⟨Source.before 16 1 ['\\'], none, {}⟩,
        template _ {}⟩

end Parser

end TemplateExpr
