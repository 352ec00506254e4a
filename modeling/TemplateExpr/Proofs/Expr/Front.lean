import TemplateExpr.Proofs.Expr.Writing
/-!
The first token of an expression that is written. It is read where the expression begins; it closes nothing,
and of a primary expression it is no operator.
-/
namespace TemplateExpr

open Token Source

def Fronted (w : List Char) (token : Token) : Prop :=
  ∀ limit i rest, Parted rest → ∃ t s, nextExpression (before limit i (w ++ rest)) = .ok t s ∧
    t.token = token ∧ t.position = i

theorem fronted_takes {token : Token} {s v : List Char}
    (takes : ∀ rest, Parted rest → Takes token s (v ++ rest)) : Fronted (s ++ v) token := by
  intro limit i rest parted
  rw [List.append_assoc]
  exact ⟨_, _, takes rest parted limit i, rfl, rfl⟩

theorem fronted_append {token : Token} {w g : List Char} (front : Fronted w token) (gap : Gap g)
    (v : List Char) : Fronted (w ++ (g ++ v)) token := by
  intro limit i rest parted
  rw [List.append_assoc, List.append_assoc]
  exact front limit i _ (parted_gap gap _)

theorem fronted_spelled {token : Token} {s : List Char} (spelled : Spelled token s)
    (noHash : token ≠ .symbol .hash) : Fronted s token := by
  have front : Fronted (s ++ []) token :=
    fronted_takes fun rest parted => takes_other spelled parted noHash
  rwa [List.append_nil] at front

theorem not_hash_of_ofToken? {token : Token} {apply : Expr → Expr}
    (operator : UnaryOp.ofToken? token = some apply) : token ≠ .symbol .hash := by
  rintro rfl
  cases operator

theorem meets_fronted {token : Token} {w rest : List Char} (front : Fronted w token) (parted : Parted rest) :
    Meets (w ++ rest) token := by
  intro limit position
  obtain ⟨t, s, next, same, _⟩ := front limit position rest parted
  exact ⟨t, s, next, same⟩

/-- The first token of a phrase that is an expression, or begins with one. -/
def Phrase.Front : Phrase → List Char → Prop
  | .expression _, w | .level _ _, w | .unary _, w =>
    ∃ token, Fronted w token ∧ token ≠ .symbol .closeParen
  | .primary _, w =>
    ∃ token, Fronted w token ∧ token ≠ .symbol .closeParen ∧ UnaryOp.ofToken? token = none
  | .arguments _, w => ∃ token, (∀ rest, Meets (w ++ rest) token) ∧ token ≠ .symbol .closeParen
  | _, _ => True

theorem meets_first {token : Token} {w g : List Char} (front : Fronted w token) (gap : Gap g)
    (v rest : List Char) : Meets (w ++ (g ++ v) ++ rest) token := by
  rw [List.append_assoc, List.append_assoc]
  exact meets_fronted front (parted_gap gap _)

theorem word_stops {g : List Char} (trivia : Trivia g) (cs : List Char) :
    (g ++ '(' :: cs).head?.any isIdentifierPart = false := by
  by_cases nonempty : g = []
  · rw [nonempty]
    rfl
  · exact parted_word (parted_gap ⟨trivia, nonempty⟩ _)

theorem takes_name {s : String} (name : IsName s) {rest : List Char}
    (stop : rest.head?.any isIdentifierPart = false) : Takes .identifier s.toList rest := by
  intro limit position
  have read := nextExpression_word limit position name.word stop
  rw [String.ofList_toList, name.free] at read
  rw [String.ofList_toList]
  exact read

theorem takes_keyword {k : Keyword} {s : String} (word : Keyword.ofWord? s = some k) {rest : List Char}
    (stop : rest.head?.any isIdentifierPart = false) : Takes (.keyword k) s.toList rest := by
  intro limit position
  have read := nextExpression_word limit position (isWord_of_ofWord? word) stop
  rw [String.ofList_toList, word] at read
  rw [String.ofList_toList]
  exact read

theorem spelled_logic (b : Bool) :
    Spelled (.keyword (if b then .trueValue else .falseValue)) (if b then "true" else "false").toList := by
  cases b <;> exact .keyword rfl

theorem front_of_written {tight : Prop} {allow : String → Nat → Except Error Unit} {phrase : Phrase}
    {i : Nat} {w : List Char} (written : Written tight allow phrase i w) : phrase.Front w := by
  induction written with
  | relational _ inner front => exact front
  | conditional condition gap₁ gap₂ yes gap₃ gap₄ no front _ _ =>
    obtain ⟨token, front, noClose⟩ := front
    exact ⟨token, fronted_append front gap₁ _, noClose⟩
  | @operand l e i w _ inner front =>
    unfold Phrase.operand at front
    split at front
    · exact front
    · exact front
  | binary left gap₁ spelled operator gap₂ right front _ =>
    obtain ⟨token, front, noClose⟩ := front
    exact ⟨token, fronted_append front gap₁ _, noClose⟩
  | plain _ inner front =>
    obtain ⟨token, front, noClose, _⟩ := front
    exact ⟨token, front, noClose⟩
  | unary spelled operator gap inner _ =>
    refine ⟨_, fronted_append (fronted_spelled spelled (not_hash_of_ofToken? operator)) gap _, ?_⟩
    rintro rfl
    cases operator
  | number unsigned value =>
    exact ⟨_, fronted_spelled (.number unsigned value) (number_ne_symbol _ _), number_ne_symbol _ _, rfl⟩
  | logic b =>
    refine ⟨_, fronted_spelled (spelled_logic b) (keyword_ne_symbol _ _), keyword_ne_symbol _ _, ?_⟩
    cases b <;> rfl
  | string quote inside _ =>
    exact ⟨_, fronted_takes (s := [_]) fun rest _ => takes_quote quote _, by decide, rfl⟩
  | paren _ trivia inside gap _ =>
    exact ⟨_, fronted_takes (s := [_]) fun rest _ => takes_openParen _, by decide, rfl⟩
  | braces trivia inside _ =>
    exact ⟨_, fronted_takes (s := [_, _]) fun rest _ => takes_valueOpen _, by decide, rfl⟩
  | name name =>
    have front := fronted_takes (v := []) fun rest (parted : Parted rest) =>
      takes_name name (parted_word parted)
    rw [List.append_nil] at front
    exact ⟨_, front, by decide, rfl⟩
  | call name trivia₁ trivia₂ inside allowed _ =>
    refine ⟨_, fronted_takes fun rest _ => takes_name name ?_, by decide, rfl⟩
    rw [List.append_assoc]
    exact word_stops trivia₁ _
  | @convert kind k s e i g₁ g₂ w g₃ word conversion trivia₁ trivia₂ inside gap _ =>
    refine ⟨_, fronted_takes fun rest _ => takes_keyword word ?_, keyword_ne_symbol _ _, ?_⟩
    · rw [List.append_assoc]
      exact word_stops trivia₁ _
    · cases k <;> first | rfl | cases conversion
  | lastArgument inner gap front =>
    obtain ⟨token, front, noClose⟩ := front
    exact ⟨token, meets_first front gap _, noClose⟩
  | argument first gap₁ gap₂ rest front _ =>
    obtain ⟨token, front, noClose⟩ := front
    exact ⟨token, meets_first front gap₁ _, noClose⟩
  | _ => trivial

end TemplateExpr
