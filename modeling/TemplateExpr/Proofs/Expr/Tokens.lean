import TemplateExpr.Proofs.Expr.Pooling
import TemplateExpr.Proofs.Token.TextSpelling
/-!
The parser as a reader of tokens. Whether a token is held back makes no difference to what comes next, so a
parser stands before characters if its next token is theirs, and every step of the parser is a step on
characters.
-/
namespace TemplateExpr.Token

open Source

/-- `w` is read as a token where `rest` follows. -/
def Takes (token : Token) (w rest : List Char) : Prop :=
  ∀ limit position, nextExpression (before limit position (w ++ rest)) =
    .ok ⟨token, String.ofList w, position⟩ (before limit (position + w.length) rest)

theorem takes_spelled {token : Token} {w rest : List Char} (spelled : Spelled token w)
    (parted : Parted rest) (noComment : token = .symbol .hash → rest.head? ≠ some '#') :
    Takes token w rest :=
  fun limit position => nextExpression_spelled limit position spelled parted noComment

theorem takes_other {token : Token} {w rest : List Char} (spelled : Spelled token w) (parted : Parted rest)
    (noHash : token ≠ .symbol .hash) : Takes token w rest :=
  takes_spelled spelled parted fun hash => absurd hash noHash

theorem number_ne_symbol (n : Numeral) (s : Symbol) : Token.number n ≠ .symbol s := by
  intro same
  cases same

theorem keyword_ne_symbol (k : Keyword) (s : Symbol) : Token.keyword k ≠ .symbol s := by
  intro same
  cases same

theorem takes_single {c : Char} {s : Symbol} (single : Symbol.ofChar? c = some s)
    (alone : ∀ d, ofPair? c d = none) (noHash : c ≠ '#') (rest : List Char) :
    Takes (.symbol s) [c] rest := by
  intro limit position
  refine nextExpression_single limit position single ?_ fun hash => absurd hash noHash
  cases rest with
  | nil => rfl
  | cons d rest => exact alone d

theorem takes_openParen (rest : List Char) : Takes (.symbol .openParen) ['('] rest :=
  takes_single rfl (fun _ => rfl) (by decide) rest

theorem takes_closeParen (rest : List Char) : Takes (.symbol .closeParen) [')'] rest :=
  takes_single rfl (fun _ => rfl) (by decide) rest

theorem takes_closeBracket (rest : List Char) : Takes (.symbol .closeBracket) [']'] rest :=
  takes_single rfl (fun _ => rfl) (by decide) rest

theorem takes_closeBrace (rest : List Char) : Takes (.symbol .closeBrace) ['\x7d'] rest :=
  takes_single rfl (fun _ => rfl) (by decide) rest

theorem takes_valueOpen (rest : List Char) : Takes .valueOpen ['$', '\x7b'] rest :=
  fun limit position => nextExpression_pair limit position rfl rest

theorem takes_quote {q : Char} (quote : q = '"' ∨ q = '\'') (rest : List Char) : Takes .quote [q] rest :=
  fun limit position => nextExpression_quote limit position quote rest

def Meets (cs : List Char) (token : Token) : Prop :=
  ∀ limit position, ∃ t s, nextExpression (before limit position cs) = .ok t s ∧ t.token = token

theorem meets_takes {token : Token} {w rest : List Char} (takes : Takes token w rest) :
    Meets (w ++ rest) token :=
  fun limit position => ⟨_, _, takes limit position, rfl⟩

theorem meets_trivia {gap cs : List Char} {token : Token} (trivia : Trivia gap) (meets : Meets cs token) :
    Meets (gap ++ cs) token := by
  intro limit position
  rw [nextExpression_trivia trivia]
  exact meets limit _

structure Gap (gap : List Char) : Prop where
  trivia : Trivia gap
  nonempty : gap ≠ []

theorem parted_gap {gap : List Char} (spaced : Gap gap) (rest : List Char) : Parted (gap ++ rest) := by
  obtain ⟨trivia, nonempty⟩ := spaced
  intro c head
  cases trivia with
  | nil => exact absurd rfl nonempty
  | blank blank _ =>
    cases head
    exact Or.inl blank
  | comment _ _ =>
    cases head
    exact Or.inr rfl

end TemplateExpr.Token

namespace TemplateExpr.Parser

open Source Token

def upcoming (p : Parser) : EStateM.Result Error Source Terminal :=
  match p.held with
  | some t => .ok t p.source
  | none => nextExpression p.source

section

variable {p : Parser} {t : Terminal} {s : Source}

theorem advance_of_upcoming (next : upcoming p = .ok t s) : advance p = .ok t ⟨s, none, p.pool⟩ := by
  obtain ⟨source, held, pool⟩ := p
  cases held with
  | some t' =>
    cases next
    rfl
  | none =>
    have read : scan nextExpression ⟨source, none, pool⟩ = .ok t ⟨s, none, pool⟩ := by
      change nextExpression source = .ok t s at next
      rw [scan, next]
    exact read

theorem peek_of_upcoming (next : upcoming p = .ok t s) : peek p = .ok t ⟨s, some t, p.pool⟩ := by
  obtain ⟨source, held, pool⟩ := p
  cases held with
  | some t' =>
    cases next
    rfl
  | none =>
    have read : scan nextExpression ⟨source, none, pool⟩ = .ok t ⟨s, none, pool⟩ := by
      change nextExpression source = .ok t s at next
      rw [scan, next]
    exact run_bind read

theorem advance_peek_error {e : Error} (failed : upcoming p = .error e s) :
    advance p = .error e ⟨s, none, p.pool⟩ ∧ peek p = .error e ⟨s, none, p.pool⟩ := by
  obtain ⟨source, held, pool⟩ := p
  cases held with
  | some t => cases failed
  | none =>
    have read : scan nextExpression ⟨source, none, pool⟩ = .error e ⟨s, none, pool⟩ := by
      change nextExpression source = .error e s at failed
      rw [scan, failed]
    exact ⟨read, (run_bind_error read : (scan nextExpression >>= _) _ = _)⟩

end

def Stands (limit : Nat) (p : Parser) (position : Nat) (cs : List Char) : Prop :=
  upcoming p = nextExpression (before limit position cs)

/-- No token is held back before the characters. -/
structure Fresh (limit : Nat) (p : Parser) (position : Nat) (cs : List Char) : Prop where
  held : p.held = none
  source : p.source = before limit position cs

section

variable {limit position : Nat} {p : Parser} {cs : List Char}

theorem stands_of_fresh (fresh : Fresh limit p position cs) : Stands limit p position cs := by
  unfold Stands upcoming
  rw [fresh.held, fresh.source]

theorem stands_trivia {gap : List Char} (trivia : Trivia gap) (stands : Stands limit p position (gap ++ cs)) :
    Stands limit p (position + gap.length) cs := by
  unfold Stands at stands ⊢
  rw [stands, nextExpression_trivia trivia]

theorem advance_of_stands {t : Terminal} {s : Source} (stands : Stands limit p position cs)
    (next : nextExpression (before limit position cs) = .ok t s) : advance p = .ok t ⟨s, none, p.pool⟩ :=
  advance_of_upcoming (stands.trans next)

theorem peek_of_stands {t : Terminal} {s : Source} (stands : Stands limit p position cs)
    (next : nextExpression (before limit position cs) = .ok t s) : peek p = .ok t ⟨s, some t, p.pool⟩ :=
  peek_of_upcoming (stands.trans next)

theorem advance_takes {token : Token} {w rest : List Char} (stands : Stands limit p position (w ++ rest))
    (takes : Takes token w rest) :
    ∃ q, advance p = .ok ⟨token, String.ofList w, position⟩ q ∧
      Fresh limit q (position + w.length) rest :=
  ⟨_, advance_of_stands stands (takes limit position), rfl, rfl⟩

theorem peek_meets {token : Token} (stands : Stands limit p position cs) (meets : Meets cs token) :
    ∃ t q, peek p = .ok t q ∧ t.token = token ∧ Stands limit q position cs := by
  obtain ⟨t, s, next, same⟩ := meets limit position
  exact ⟨t, _, peek_of_stands stands next, same, next.symm⟩

theorem expect_takes {s : Symbol} {w rest : List Char} (stands : Stands limit p position (w ++ rest))
    (takes : Takes (.symbol s) w rest) :
    ∃ q, expect s p = .ok () q ∧ Fresh limit q (position + w.length) rest := by
  obtain ⟨q, read, fresh⟩ := advance_takes stands takes
  refine ⟨q, ?_, fresh⟩
  rw [expect, run_bind read, if_pos rfl]
  rfl

theorem expectIdentifier_takes {w rest : List Char} (stands : Stands limit p position (w ++ rest))
    (takes : Takes .identifier w rest) :
    ∃ q, expectIdentifier p = .ok (String.ofList w) q ∧ Fresh limit q (position + w.length) rest := by
  obtain ⟨q, read, fresh⟩ := advance_takes stands takes
  refine ⟨q, ?_, fresh⟩
  rw [expectIdentifier, run_bind read, if_pos rfl]
  rfl

theorem eat_takes {s : Symbol} {w rest : List Char} (stands : Stands limit p position (w ++ rest))
    (takes : Takes (.symbol s) w rest) :
    ∃ q, eat s p = .ok true q ∧ Fresh limit q (position + w.length) rest := by
  obtain ⟨t, r, looked, same, still⟩ := peek_meets stands (meets_takes takes)
  obtain ⟨q, read, fresh⟩ := advance_takes still takes
  refine ⟨q, ?_, fresh⟩
  rw [eat, run_bind looked, if_pos same, run_bind read]
  rfl

theorem eat_meets {s : Symbol} {token : Token} (stands : Stands limit p position cs)
    (meets : Meets cs token) (other : token ≠ .symbol s) :
    ∃ q, eat s p = .ok false q ∧ Stands limit q position cs := by
  obtain ⟨t, q, looked, same, still⟩ := peek_meets stands meets
  refine ⟨q, ?_, still⟩
  rw [eat, run_bind looked, if_neg (same ▸ other)]
  rfl

theorem scan_fresh {α : Type} {m : Scan α} {a : α} {next : Nat} {rest : List Char}
    (fresh : Fresh limit p position cs)
    (read : m (before limit position cs) = .ok a (before limit next rest)) :
    ∃ q, scan m p = .ok a q ∧ Fresh limit q next rest := by
  refine ⟨{ p with source := before limit next rest }, ?_, fresh.held, rfl⟩
  rw [scan, fresh.source, read]

theorem constant_fresh (v : Value) (fresh : Fresh limit p position cs) :
    ∃ q, constant v p = .ok (.constant v) q ∧ Fresh limit q position cs :=
  ⟨_, constant_eq v p, fresh.held, fresh.source⟩

theorem ofSegments_fresh (segments : List (Segment Expr)) (typed : Bool)
    (fresh : Fresh limit p position cs) :
    ∃ q, ofSegments segments typed p = .ok (.template segments typed) q ∧ Fresh limit q position cs := by
  obtain ⟨pool, made⟩ := ofSegments_eq segments typed p
  exact ⟨_, made, fresh.held, fresh.source⟩

end

end TemplateExpr.Parser
