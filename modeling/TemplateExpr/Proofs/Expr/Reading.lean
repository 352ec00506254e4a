import TemplateExpr.Proofs.Expr.Front
/-!
What is written is read. For each phrase there is a statement of what its parser does where the phrase stands,
and for each way to write it a lemma that derives the statement from those of its parts.
-/
namespace TemplateExpr

open Token Source Numeral

theorem strength_next {l next : Level} (h : l.next? = some next) : next.strength = l.strength + 1 := by
  cases l <;> cases h <;> rfl

theorem strength_last {l : Level} (h : l.next? = none) : l.strength = 4 := by
  cases l <;> first | rfl | cases h

def Token.level? : Token → Option Level
  | .symbol .equal | .symbol .notEqual | .symbol .less | .symbol .greater | .symbol .lessEqual
  | .symbol .greaterEqual | .keyword .isBefore | .keyword .isAfter => some .relational
  | .symbol .shiftLeft | .symbol .shiftRight | .keyword .or | .symbol .pipe => some .shift
  | .symbol .plus | .symbol .minus | .keyword .xor | .symbol .caret => some .additive
  | .symbol .star | .symbol .slash | .symbol .doubleSlash | .symbol .minusSlash | .symbol .percent
  | .keyword .and | .symbol .ampersand => some .multiplicative
  | .symbol .doubleStar | .symbol .join => some .power
  | _ => none

theorem level?_of_operator? {l : Level} {token : Token} {op : BinaryOp} (h : l.operator? token = some op) :
    token.level? = some l := by
  unfold Level.operator? at h
  split at h <;> first | rfl | cases h

theorem operator?_eq_none {l : Level} {token : Token} (other : token.level? ≠ some l) :
    l.operator? token = none := by
  cases h : l.operator? token with
  | none => rfl
  | some op => exact absurd (level?_of_operator? h) other

/-- A token that does not go on with an operand of operators of the strength. -/
structure Token.Ends (strength : Nat) (token : Token) : Prop where
  noCall : token ≠ .symbol .openParen
  weaker : ∀ l, token.level? = some l → l.strength < strength

theorem Token.ends_mono {m n : Nat} {token : Token} (ends : Ends m token) (less : m ≤ n) : Ends n token :=
  ⟨ends.noCall, fun l h => Nat.lt_of_lt_of_le (ends.weaker l h) less⟩

theorem Token.ends_operator {l : Level} {token : Token} {op : BinaryOp} (h : l.operator? token = some op) :
    Ends (l.strength + 1) token := by
  constructor
  · rintro rfl
    cases level?_of_operator? h
  · intro l' same
    cases (level?_of_operator? h).symm.trans same
    exact Nat.lt_succ_self _

theorem Token.ends_other {token : Token} (none : token.level? = none) (noCall : token ≠ .symbol .openParen) :
    Ends 0 token := by
  refine ⟨noCall, fun l same => ?_⟩
  rw [none] at same
  cases same

namespace Parser

variable (limit : Nat)

/-- Where `w` stands, and `rest` begins with a token that may follow, the parser reads `w` as `a`. -/
def ReadsOpen {α : Type} (m : Nat → Parse α) (a : α) (room : Nat) (follows : Token → Prop) (i : Nat)
    (w : List Char) : Prop :=
  ∀ depth p rest token, 16 * w.length + room ≤ depth → Parted rest → Meets rest token → follows token →
    Stands limit p i (w ++ rest) → ∃ q, m depth p = .ok a q ∧ Stands limit q (i + w.length) rest

/-- Where `w` stands the parser reads it as `a`, whatever follows, and holds nothing back. -/
def ReadsClosed {α : Type} (m : Nat → Parse α) (a : α) (room : Nat) (i : Nat) (w : List Char) : Prop :=
  ∀ depth p rest, 16 * w.length + room ≤ depth → Stands limit p i (w ++ rest) →
    ∃ q, m depth p = .ok a q ∧ Fresh limit q (i + w.length) rest

variable (allow : String → Nat → Except Error Unit)

def ReadsLevel (l : Level) (e : Expr) (i : Nat) (w : List Char) : Prop :=
  ∀ depth p rest token, 16 * w.length + (11 - 2 * l.strength) ≤ depth → Parted rest → Meets rest token →
    Token.Ends (l.strength + 1) token → Stands limit p i (w ++ rest) →
      ∃ d q, binary allow depth l p = binaryRest allow d l e q ∧ depth ≤ d + w.length + 1 ∧
        Stands limit q (i + w.length) rest

def ReadsSegments (follow : Option Char) (values : Nat) (ss : List (Segment Expr)) (i : Nat)
    (w : List Char) : Prop :=
  ∀ depth p rest, 16 * w.length + 1 ≤ depth → IsFollow follow → (follow = none → rest = []) →
    Fresh limit p i (w ++ rest) →
      ∃ q, segments allow depth follow values p = .ok ss q ∧ Fresh limit q (i + w.length) rest

/-- What the parser of a phrase does where the phrase is written. The room that is left in the depth covers the
calls that go by before a character is read. -/
def Reads : Phrase → Nat → List Char → Prop
  | .expression e =>
    ReadsOpen limit (Parser.expression allow) e 12 fun t => Token.Ends 0 t ∧ t ≠ .symbol .question
  | .level l e => ReadsLevel limit allow l e
  | .unary e => ReadsOpen limit (Parser.unary allow) e 1 (Token.Ends 5)
  | .primary e => ReadsOpen limit (Parser.primary allow) e 0 (Token.Ends 5)
  | .call es => fun i w => ∀ name position, allow name es.length = .ok () →
      ReadsClosed limit (fun depth => Parser.call allow depth name position) (.call name position es) 1 i w
  | .arguments es => ReadsClosed limit (Parser.arguments allow) es 0
  | .braced e => ReadsClosed limit (Parser.reference allow) e 0
  | .slice s =>
    ReadsOpen limit (Parser.slice allow) s 1 fun t => Token.Ends 3 t ∧ t ≠ .symbol .colon
  | .fallback e => ReadsOpen limit (Parser.fallback allow) e 1 fun t => t = .symbol .closeBrace
  | .segments ending values ss => ReadsSegments limit allow ending values ss

variable {limit allow}

theorem fresh_at {p : Parser} {i j : Nat} {cs : List Char} (fresh : Fresh limit p i cs) (same : i = j) :
    Fresh limit p j cs := same ▸ fresh

theorem stands_at {p : Parser} {i j : Nat} {cs : List Char} (stands : Stands limit p i cs) (same : i = j) :
    Stands limit p j cs := same ▸ stands

theorem depth_succ {depth n : Nat} (room : n + 1 ≤ depth) : ∃ d, depth = d + 1 ∧ n ≤ d :=
  ⟨depth - 1, by omega, by omega⟩

section Levels

variable {l : Level} {e : Expr} {i : Nat} {w : List Char}

theorem readsOpen_binary (reads : ReadsLevel limit allow l e i w) :
    ReadsOpen limit (fun depth => binary allow depth l) e (11 - 2 * l.strength) (Token.Ends l.strength)
      i w := by
  intro depth p rest token room parted meets ends stands
  obtain ⟨d, q, chain, left, stands⟩ :=
    reads depth p rest token room parted meets (Token.ends_mono ends (Nat.le_succ _)) stands
  have bound := strength_le l
  obtain ⟨d, rfl⟩ := Nat.exists_eq_add_one.mpr (show 0 < d by omega)
  obtain ⟨t, q', looked, same, stands⟩ := peek_meets stands meets
  have stop : l.operator? token = none :=
    operator?_eq_none fun other => Nat.lt_irrefl _ (ends.weaker l other)
  refine ⟨q', ?_, stands⟩
  change binary allow depth l p = _
  rw [chain, binaryRest, run_bind looked, same, stop]
  rfl

theorem readsOpen_operand (reads : Reads limit allow (.operand l e) i w) :
    ReadsOpen limit (fun depth => operand allow depth l) e (10 - 2 * l.strength)
      (Token.Ends (l.strength + 1)) i w := by
  intro depth p rest token room parted meets ends stands
  have bound := strength_le l
  obtain ⟨d, rfl, fits⟩ : ∃ d, depth = d + 1 ∧ 16 * w.length + (9 - 2 * l.strength) ≤ d :=
    depth_succ (by omega)
  change ∃ q, operand allow (d + 1) l p = _ ∧ _
  rw [operand]
  cases following : l.next? with
  | some next =>
    have stronger := strength_next following
    rw [Phrase.operand, following] at reads
    rw [← stronger] at ends
    exact readsOpen_binary reads d p rest token (by omega) parted meets ends stands
  | none =>
    have last := strength_last following
    rw [Phrase.operand, following] at reads
    rw [last] at ends
    exact reads d p rest token (by omega) parted meets ends stands

theorem reads_operand (reads : Reads limit allow (.operand l e) i w) :
    Reads limit allow (.level l e) i w := by
  intro depth p rest token room parted meets ends stands
  have bound := strength_le l
  obtain ⟨d, rfl, fits⟩ : ∃ d, depth = d + 1 ∧ 16 * w.length + (10 - 2 * l.strength) ≤ d :=
    depth_succ (by omega)
  obtain ⟨q, done, stands⟩ := readsOpen_operand reads d p rest token fits parted meets ends stands
  refine ⟨d, q, ?_, by omega, stands⟩
  rw [binary, run_bind done]

theorem reads_binary {a b : Expr} {op : BinaryOp} {token : Token} {s v g₁ g₂ : List Char}
    (left : Reads limit allow (.level l a) i w) (gap₁ : Gap g₁) (spelled : Spelled token s)
    (operator : l.operator? token = some op) (gap₂ : Gap g₂)
    (right : Reads limit allow (.operand l b) (i + w.length + g₁.length + s.length + g₂.length) v) :
    Reads limit allow (.level l (.binary op a b)) i (w ++ (g₁ ++ (s ++ (g₂ ++ v)))) := by
  intro depth p rest last room parted meets ends stands
  have bound := strength_le l
  have some₁ := List.length_pos_of_ne_nil gap₁.nonempty
  simp only [List.append_assoc, List.length_append] at stands room
  have noHash : token ≠ .symbol .hash := by
    rintro rfl
    cases level?_of_operator? operator
  have takes : Takes token s (g₂ ++ (v ++ rest)) := takes_other spelled (parted_gap gap₂ _) noHash
  -- the left side leaves the loop of its level in front of this operator
  obtain ⟨d, q, chain, deep, stands⟩ := left depth p _ token (by omega) (parted_gap gap₁ _)
    (meets_trivia gap₁.trivia (meets_takes takes)) (Token.ends_operator operator) stands
  obtain ⟨d, rfl⟩ := Nat.exists_eq_add_one.mpr (show 0 < d by omega)
  obtain ⟨t, q, looked, same, stands⟩ := peek_meets (stands_trivia gap₁.trivia stands) (meets_takes takes)
  obtain ⟨q, read, fresh⟩ := advance_takes stands takes
  obtain ⟨q, done, stands⟩ := readsOpen_operand right d q rest last (by omega) parted meets ends
    (stands_trivia gap₂.trivia (stands_of_fresh fresh))
  refine ⟨d, q, ?_, ?_, stands_at stands ?_⟩
  · rw [chain, binaryRest, run_bind looked, same, operator]
    dsimp only
    rw [run_bind read, run_bind done]
  · simp only [List.length_append]
    omega
  · simp only [List.length_append]
    omega

end Levels

section Expressions

variable {e : Expr} {i : Nat} {w g₁ g₂ : List Char}

theorem reads_plain {token : Token} (inner : Reads limit allow (.primary e) i w)
    (front : Fronted w token) (noOperator : UnaryOp.ofToken? token = none) :
    Reads limit allow (.unary e) i w := by
  intro depth p rest last room parted meets ends stands
  obtain ⟨d, rfl, fits⟩ : ∃ d, depth = d + 1 ∧ 16 * w.length ≤ d := depth_succ room
  obtain ⟨t, q, looked, same, stands⟩ := peek_meets stands (meets_fronted front parted)
  obtain ⟨q, done, stands⟩ := inner d q rest last fits parted meets ends stands
  refine ⟨q, ?_, stands⟩
  rw [Parser.unary, run_bind looked, same, noOperator]
  exact done

theorem reads_unary {apply : Expr → Expr} {token : Token} {s g : List Char} (spelled : Spelled token s)
    (operator : UnaryOp.ofToken? token = some apply) (gap : Gap g)
    (inner : Reads limit allow (.unary e) (i + s.length + g.length) w) :
    Reads limit allow (.unary (apply e)) i (s ++ (g ++ w)) := by
  intro depth p rest last room parted meets ends stands
  have some₁ := List.length_pos_of_ne_nil gap.nonempty
  simp only [List.append_assoc, List.length_append] at stands room
  obtain ⟨d, rfl, fits⟩ : ∃ d, depth = d + 1 ∧ 16 * w.length + 1 ≤ d := depth_succ (by omega)
  have takes : Takes token s (g ++ (w ++ rest)) :=
    takes_other spelled (parted_gap gap _) (not_hash_of_ofToken? operator)
  obtain ⟨t, q, looked, same, stands⟩ := peek_meets stands (meets_takes takes)
  obtain ⟨q, read, fresh⟩ := advance_takes stands takes
  obtain ⟨q, done, stands⟩ := inner d q rest last fits parted meets ends
    (stands_trivia gap.trivia (stands_of_fresh fresh))
  refine ⟨q, ?_, stands_at stands ?_⟩
  · rw [Parser.unary, run_bind looked, same, operator]
    dsimp only
    rw [run_bind read, run_bind done]
    rfl
  · simp only [List.length_append]
    omega

theorem reads_relational (inner : Reads limit allow (.level .relational e) i w) :
    Reads limit allow (.expression e) i w := by
  intro depth p rest token room parted meets follows stands
  obtain ⟨ends, noQuestion⟩ := follows
  obtain ⟨d, rfl, fits⟩ : ∃ d, depth = d + 1 ∧ 16 * w.length + 11 ≤ d := depth_succ room
  obtain ⟨q, done, stands⟩ := readsOpen_binary inner d p rest token fits parted meets ends stands
  obtain ⟨q, ate, stands⟩ := eat_meets stands meets noQuestion
  refine ⟨q, ?_, stands⟩
  rw [Parser.expression, run_bind done, run_bind ate]
  rfl

theorem ends_symbol {s : Symbol} (none : Token.level? (.symbol s) = none) (noCall : s ≠ .openParen) :
    Token.Ends 0 (.symbol s) :=
  Token.ends_other none fun same => noCall (Token.symbol.inj same)

theorem takes_question {g : List Char} (gap : Gap g) (rest : List Char) :
    Takes (.symbol .question) ['?'] (g ++ rest) :=
  takes_other (.single rfl) (parted_gap gap rest) (by decide)

theorem takes_colon {g : List Char} (gap : Gap g) (rest : List Char) :
    Takes (.symbol .colon) [':'] (g ++ rest) :=
  takes_other (.single rfl) (parted_gap gap rest) (by decide)

theorem takes_comma {g : List Char} (gap : Gap g) (rest : List Char) :
    Takes (.symbol .comma) [','] (g ++ rest) :=
  takes_other (.single rfl) (parted_gap gap rest) (by decide)

theorem takes_minus {g : List Char} (gap : Gap g) (rest : List Char) :
    Takes (.symbol .minus) ['-'] (g ++ rest) :=
  takes_other (.single rfl) (parted_gap gap rest) (by decide)

theorem meets_gap {s : Symbol} {c : Char} {g rest : List Char} (gap : Gap g)
    (takes : Takes (.symbol s) [c] rest) : Meets (g ++ (c :: rest)) (.symbol s) :=
  meets_trivia gap.trivia (meets_takes takes)

theorem reads_conditional {c a b : Expr} {u v g₃ g₄ : List Char}
    (condition : Reads limit allow (.level .relational c) i w) (gap₁ : Gap g₁) (gap₂ : Gap g₂)
    (yes : Reads limit allow (.expression a) (i + w.length + g₁.length + 1 + g₂.length) u)
    (gap₃ : Gap g₃) (gap₄ : Gap g₄)
    (no : Reads limit allow (.expression b)
      (i + w.length + g₁.length + 1 + g₂.length + u.length + g₃.length + 1 + g₄.length) v) :
    Reads limit allow (.expression (.conditional c a b)) i
      (w ++ (g₁ ++ ('?' :: (g₂ ++ (u ++ (g₃ ++ (':' :: (g₄ ++ v)))))))) := by
  intro depth p rest token room parted meets follows stands
  simp only [List.append_assoc, List.cons_append, List.length_append, List.length_cons] at stands room
  obtain ⟨d, rfl, fits⟩ : ∃ d, depth = d + 1 ∧ 16 * (w.length + u.length + v.length + 2) + 11 ≤ d :=
    depth_succ (by omega)
  have question := takes_question gap₂ (u ++ (g₃ ++ (':' :: (g₄ ++ (v ++ rest)))))
  have colon := takes_colon gap₄ (v ++ rest)
  obtain ⟨q, chosen, stands⟩ := readsOpen_binary condition d p _ _ (by simp only [Level.strength]; omega)
    (parted_gap gap₁ _) (meets_gap gap₁ question) (ends_symbol rfl (by decide)) stands
  obtain ⟨q, asked, fresh⟩ := eat_takes (stands_trivia gap₁.trivia stands) question
  obtain ⟨q, first, stands⟩ := yes d q _ _ (by omega) (parted_gap gap₃ _) (meets_gap gap₃ colon)
    ⟨ends_symbol rfl (by decide), by decide⟩ (stands_trivia gap₂.trivia (stands_of_fresh fresh))
  obtain ⟨q, parts, fresh⟩ := expect_takes (stands_trivia gap₃.trivia stands) colon
  obtain ⟨q, second, stands⟩ := no d q rest token (by omega) parted meets follows
    (stands_trivia gap₄.trivia (stands_of_fresh fresh))
  refine ⟨q, ?_, stands_at stands ?_⟩
  · rw [Parser.expression, run_bind chosen, run_bind asked]
    simp only [if_true]
    rw [run_bind first, run_bind parts, run_bind second]
    rfl
  · simp only [List.length_append, List.length_cons]
    omega

theorem reads_constant {v : Value} {token : Token} (takes : ∀ rest, Parted rest → Takes token w rest)
    (nonempty : w ≠ []) (read : ∀ d p q, advance p = .ok ⟨token, String.ofList w, i⟩ q →
      Parser.primary allow (d + 1) p = constant v q) : Reads limit allow (.primary (.constant v)) i w := by
  intro depth p rest last room parted meets ends stands
  have some₁ := List.length_pos_of_ne_nil nonempty
  obtain ⟨d, rfl⟩ := Nat.exists_eq_add_one.mpr (show 0 < depth by omega)
  obtain ⟨q, taken, fresh⟩ := advance_takes stands (takes rest parted)
  obtain ⟨q', done, fresh⟩ := constant_fresh v fresh
  exact ⟨q', (read d p q taken).trans done, stands_of_fresh fresh⟩

theorem reads_number {l : Literal} {d : Decimal} (unsigned : l.sign = .none) (value : Yields l d) :
    Reads limit allow (.primary (.constant (.number d))) i l.chars := by
  have nonempty : l.chars ≠ [] := by
    obtain ⟨c, cs, front, _⟩ := body_head l.body []
    rw [List.append_nil] at front
    rw [Literal.chars, front]
    exact List.append_ne_nil_of_right_ne_nil _ (List.cons_ne_nil c cs)
  have takes : ∀ rest, Parted rest → Takes (.number (l.numeral d)) l.chars rest :=
    fun rest parted => takes_other (.number unsigned value) parted (number_ne_symbol _ _)
  refine reads_constant takes nonempty fun depth p q read => ?_
  rw [Parser.primary, run_bind read]
  rfl

theorem reads_logic (b : Bool) :
    Reads limit allow (.primary (.constant (.logic b))) i (if b then "true" else "false").toList := by
  have takes : ∀ rest, Parted rest →
      Takes (.keyword (if b then .trueValue else .falseValue)) (if b then "true" else "false").toList rest :=
    fun rest parted => takes_other (spelled_logic b) parted (keyword_ne_symbol _ _)
  have nonempty : (if b then "true" else "false").toList ≠ [] := by
    cases b <;> decide
  refine reads_constant takes nonempty fun depth p q read => ?_
  rw [Parser.primary, run_bind read]
  cases b <;> rfl

theorem reads_paren (inside : Reads limit allow (.expression e) (i + 1 + g₁.length) w) (trivia : Trivia g₁)
    (gap : Gap g₂) : Reads limit allow (.primary e) i ('(' :: (g₁ ++ (w ++ (g₂ ++ [')'])))) := by
  intro depth p rest last room parted meets ends stands
  simp only [List.append_assoc, List.cons_append, List.nil_append, List.length_append,
    List.length_cons] at stands room
  obtain ⟨d, rfl, fits⟩ : ∃ d, depth = d + 1 ∧ 16 * w.length + 12 ≤ d := depth_succ (by omega)
  obtain ⟨q, opened, fresh⟩ := advance_takes (w := ['(']) stands (takes_openParen _)
  obtain ⟨q, done, stands⟩ := inside d q _ _ fits (parted_gap gap _)
    (meets_gap gap (takes_closeParen rest)) ⟨ends_symbol rfl (by decide), by decide⟩
    (stands_trivia trivia (stands_of_fresh fresh))
  obtain ⟨q, closed, fresh⟩ := expect_takes (stands_trivia gap.trivia stands) (takes_closeParen rest)
  refine ⟨q, ?_, stands_at (stands_of_fresh fresh) ?_⟩
  · rw [Parser.primary, run_bind opened]
    dsimp only
    rw [run_bind done, run_bind closed]
    rfl
  · simp only [List.length_append, List.length_cons, List.length_nil]
    omega

theorem reads_braces {g : List Char} (inside : Reads limit allow (.braced e) (i + 2 + g.length) w)
    (trivia : Trivia g) : Reads limit allow (.primary e) i ('$' :: '\x7b' :: (g ++ w)) := by
  intro depth p rest last room parted meets ends stands
  simp only [List.append_assoc, List.cons_append, List.length_append, List.length_cons] at stands room
  obtain ⟨d, rfl, fits⟩ : ∃ d, depth = d + 1 ∧ 16 * w.length + 0 ≤ d := depth_succ (by omega)
  obtain ⟨q, opened, fresh⟩ := advance_takes (w := ['$', '\x7b']) stands (takes_valueOpen _)
  obtain ⟨q, done, fresh⟩ := inside d q rest fits (stands_trivia trivia (stands_of_fresh fresh))
  refine ⟨q, ?_, stands_at (stands_of_fresh fresh) ?_⟩
  · rw [Parser.primary, run_bind opened]
    exact done
  · simp only [List.length_append, List.length_cons]
    omega

theorem reads_name {s : String} (name : IsName s) :
    Reads limit allow (.primary (.reference { name := s })) i s.toList := by
  intro depth p rest last room parted meets ends stands
  have some₁ : 0 < s.toList.length := by
    obtain ⟨c, cs, chars, _⟩ := name.word
    rw [chars]
    exact Nat.succ_pos _
  obtain ⟨d, rfl⟩ := Nat.exists_eq_add_one.mpr (show 0 < depth by omega)
  obtain ⟨q, read, fresh⟩ := advance_takes stands (takes_name name (parted_word parted))
  obtain ⟨q, alone, stands⟩ := eat_meets (stands_of_fresh fresh) meets ends.noCall
  refine ⟨q, ?_, stands⟩
  rw [Parser.primary, run_bind read]
  dsimp only
  rw [run_bind alone, String.ofList_toList]
  rfl

theorem reads_call {s : String} {es : List Expr}
    (inside : Reads limit allow (.call es) (i + s.toList.length + g₁.length + 1 + g₂.length) w)
    (name : IsName s) (trivia₁ : Trivia g₁) (trivia₂ : Trivia g₂) (allowed : allow s es.length = .ok ()) :
    Reads limit allow (.primary (.call s i es)) i (s.toList ++ (g₁ ++ ('(' :: (g₂ ++ w)))) := by
  intro depth p rest last room parted meets ends stands
  simp only [List.append_assoc, List.cons_append, List.length_append, List.length_cons] at stands room
  obtain ⟨d, rfl, fits⟩ : ∃ d, depth = d + 1 ∧ 16 * w.length + 1 ≤ d := depth_succ (by omega)
  obtain ⟨q, read, fresh⟩ := advance_takes stands (takes_name name (word_stops trivia₁ _))
  obtain ⟨q, opened, fresh⟩ := eat_takes (w := ['(']) (stands_trivia trivia₁ (stands_of_fresh fresh))
    (takes_openParen _)
  obtain ⟨q, done, fresh⟩ := inside s i allowed d q rest fits
    (stands_trivia trivia₂ (stands_of_fresh fresh))
  refine ⟨q, ?_, stands_at (stands_of_fresh fresh) ?_⟩
  · rw [Parser.primary, run_bind read]
    dsimp only
    rw [run_bind opened, String.ofList_toList]
    exact done
  · simp only [List.length_append, List.length_cons]
    omega

theorem reads_convert {kind : Kind} {k : Keyword} {s : String} {g₃ : List Char}
    (inside : Reads limit allow (.expression e) (i + s.toList.length + g₁.length + 1 + g₂.length) w)
    (word : Keyword.ofWord? s = some k) (conversion : Kind.ofKeyword? k = some kind) (trivia₁ : Trivia g₁)
    (trivia₂ : Trivia g₂) (gap : Gap g₃) :
    Reads limit allow (.primary (.convert kind e)) i
      (s.toList ++ (g₁ ++ ('(' :: (g₂ ++ (w ++ (g₃ ++ [')'])))))) := by
  intro depth p rest last room parted meets ends stands
  simp only [List.append_assoc, List.cons_append, List.nil_append, List.length_append,
    List.length_cons] at stands room
  obtain ⟨d, rfl, fits⟩ : ∃ d, depth = d + 1 ∧ 16 * w.length + 12 ≤ d := depth_succ (by omega)
  obtain ⟨q, read, fresh⟩ := advance_takes stands (takes_keyword word (word_stops trivia₁ _))
  obtain ⟨q, opened, fresh⟩ := expect_takes (w := ['(']) (stands_trivia trivia₁ (stands_of_fresh fresh))
    (takes_openParen _)
  obtain ⟨q, done, stands⟩ := inside d q _ _ fits (parted_gap gap _)
    (meets_gap gap (takes_closeParen rest)) ⟨ends_symbol rfl (by decide), by decide⟩
    (stands_trivia trivia₂ (stands_of_fresh fresh))
  obtain ⟨q, closed, fresh⟩ := expect_takes (stands_trivia gap.trivia stands) (takes_closeParen rest)
  refine ⟨q, ?_, stands_at (stands_of_fresh fresh) ?_⟩
  · rw [Parser.primary, run_bind read]
    cases k <;> cases conversion
    all_goals
      simp only [Kind.ofKeyword?]
      rw [run_bind opened, run_bind done, run_bind closed]
      rfl
  · simp only [List.length_append, List.length_cons, List.length_nil]
    omega

end Expressions

end Parser

end TemplateExpr
